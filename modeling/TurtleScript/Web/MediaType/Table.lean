-- The known types of files, each with the endings of the names of its files in
-- small letters. Types whose names begin alike stand together. No two types
-- share an ending.

namespace TurtleScript.Web

/-- Files to look at or to listen to, texts and bodies in space. -/
def mediumFamilies : List (String × List (String × List String)) :=
  [("text/", [("cache-manifest", ["appcache"]), ("calendar", ["ics", "ifb"]),
      ("coffeescript", ["coffee", "litcoffee"]), ("css", ["css"]), ("csv", ["csv"]),
      ("dlm", ["dlm"]), ("h323", ["323"]), ("html", ["htm", "html", "hxt", "shtml"]),
      ("iuls", ["uls"]), ("jade", ["jade"]), ("javascript", ["js", "jsx", "mjs"]),
      ("less", ["less"]), ("markdown", ["markdown", "md"]), ("mathml", ["mml"]), ("n3", ["n3"]),
      ("plain", ["asm", "bas", "c", "cc", "cd", "cfg", "cmd", "cnf", "conf", "cpp", "cs",
        "csdproj", "csproj", "cxx", "dbproj", "def", "dsw", "h", "hpp", "hxx", "i", "idl", "in",
        "inc", "ini", "inl", "ipproj", "jsxbin", "list", "log", "lst", "mak", "map", "mk", "odh",
        "odl", "pkgdef", "pkgundef", "rc", "rc2", "rct", "reg", "rgs", "s", "scr", "sln", "sol",
        "sor", "srf", "text", "tlh", "tli", "txt", "user", "vb", "vbdproj", "vbproj", "vcs",
        "vddproj", "vdp", "vdproj", "vspscc", "vsscc", "vssscc", "xdr", "xoml"]),
      ("prs.lines.tag", ["dsc"]), ("richtext", ["rtx"]), ("scriptlet", ["sct", "wsc"]),
      ("sgml", ["sgm", "sgml"]), ("shex", ["shex"]), ("slim", ["slim", "slm"]),
      ("stylus", ["styl", "stylus"]), ("tab-separated-values", ["tsv"]), ("turtle", ["ttl"]),
      ("uri-list", ["uri", "uris", "urls"]), ("vbscript", ["vbs"]), ("vcard", ["vcard"]),
      ("vnd.curl", ["curl"]), ("vnd.curl.dcurl", ["dcurl"]), ("vnd.curl.mcurl", ["mcurl"]),
      ("vnd.curl.scurl", ["scurl"]), ("vnd.dvb.subtitle", ["sub"]), ("vnd.fly", ["fly"]),
      ("vnd.fmi.flexstor", ["flx"]), ("vnd.graphviz", ["gv"]), ("vnd.in3d.3dml", ["3dml"]),
      ("vnd.in3d.spot", ["spot"]), ("vnd.sun.j2me.app-descriptor", ["jad"]),
      ("vnd.wap.wml", ["wml"]), ("vnd.wap.wmlscript", ["wmls"]), ("vtt", ["vtt"]),
      ("webviewhtml", ["htt"]), ("x-c", ["dic", "hh"]), ("x-component", ["htc"]),
      ("x-fortran", ["f", "f77", "f90", "for"]), ("x-handlebars-template", ["hbs"]),
      ("x-hdml", ["hdml"]), ("x-html-insertion", ["qht", "qhtm"]), ("x-lua", ["lua"]),
      ("x-markdown", ["mkd"]), ("x-ms-contact", ["contact"]), ("x-ms-group", ["group"]),
      ("x-ms-iqy", ["iqy"]), ("x-ms-rqy", ["rqy"]), ("x-nfo", ["nfo"]), ("x-opml", ["opml"]),
      ("x-pascal", ["p", "pas"]), ("x-processing", ["pde"]), ("x-rust", ["rs"]),
      ("x-sass", ["sass"]), ("x-scss", ["scss"]), ("x-setext", ["etx"]), ("x-sfv", ["sfv"]),
      ("x-suse-ymp", ["ymp"]), ("x-toml", ["toml"]), ("x-uuencode", ["uu"]), ("x-vcard", ["vcf"]),
      ("x-yaml", ["yaml", "yml"]),
      ("xml", ["addin", "disco", "dtd", "dtsconfig", "mno", "ssisdeploymentmanifest", "vml",
        "vsct", "vsixlangpack", "vsixmanifest", "vssettings", "vstemplate", "wsdl", "xml",
        "xrm-ms", "xsd", "xsf", "xsl", "xslt"])]),
    ("font/", [("collection", ["ttc"]), ("otf", ["otf"]), ("ttf", ["ttf"]), ("woff", ["woff"]),
      ("woff2", ["woff2"])]),
    ("message/", [("rfc822", ["eml", "mht", "mhtml", "mime", "nws"])]),
    ("x-conference/", [("x-cooltalk", ["ice"])]),
    ("image/", [("apng", ["apng"]), ("avci", ["avci"]), ("avcs", ["avcs"]), ("avif", ["avif"]),
      ("avif-sequence", ["avifs"]), ("bmp", ["bmp", "dib"]), ("cgm", ["cgm"]), ("cis-cod", ["cod"]),
      ("g3fax", ["g3"]), ("gif", ["gif"]), ("heic", ["heic"]), ("heic-sequence", ["heics"]),
      ("heif", ["heif"]), ("heif-sequence", ["heifs"]), ("ief", ["ief"]), ("jp2", ["jp2", "jpg2"]),
      ("jpeg", ["jpe", "jpeg", "jpg"]), ("jpm", ["jpm"]), ("jpx", ["jpf", "jpx"]), ("jxl", ["jxl"]),
      ("ktx", ["ktx"]), ("pict", ["pct", "pic", "pict"]), ("pjpeg", ["jfif"]),
      ("png", ["png", "pnz"]), ("prs.btif", ["btif"]), ("sgi", ["sgi"]),
      ("svg+xml", ["svg", "svgz"]), ("tiff", ["tif", "tiff"]),
      ("vnd.dece.graphic", ["uvg", "uvi", "uvvg", "uvvi"]), ("vnd.djvu", ["djv", "djvu"]),
      ("vnd.fastbidsheet", ["fbs"]), ("vnd.fpx", ["fpx"]), ("vnd.fst", ["fst"]),
      ("vnd.fujixerox.edmics-mmr", ["mmr"]), ("vnd.fujixerox.edmics-rlc", ["rlc"]),
      ("vnd.ms-modi", ["mdi"]), ("vnd.ms-photo", ["wdp"]), ("vnd.net-fpx", ["npx"]),
      ("vnd.rn-realflash", ["rf"]), ("vnd.wap.wbmp", ["wbmp"]), ("vnd.xiff", ["xif"]),
      ("webp", ["webp"]), ("x-3ds", ["3ds"]), ("x-adobe-dng", ["dng"]), ("x-canon-cr2", ["cr2"]),
      ("x-canon-cr3", ["cr3"]), ("x-canon-crw", ["crw"]), ("x-cmu-raster", ["ras"]),
      ("x-cmx", ["cmx"]), ("x-epson-erf", ["erf"]),
      ("x-freehand", ["fh", "fh4", "fh5", "fh7", "fhc"]), ("x-fuji-raf", ["raf"]),
      ("x-icon", ["ico"]), ("x-jg", ["art"]), ("x-jng", ["jng"]), ("x-kodak-k25", ["k25"]),
      ("x-kodak-kdc", ["kdc"]), ("x-macpaint", ["mac", "pnt", "pntg"]), ("x-minolta-mrw", ["mrw"]),
      ("x-mrsid-image", ["sid"]), ("x-nikon-nef", ["nef"]), ("x-nikon-nrw", ["nrw"]),
      ("x-olympus-orf", ["orf"]), ("x-panasonic-raw", ["raw"]), ("x-panasonic-rw2", ["rw2"]),
      ("x-pentax-pef", ["pef"]), ("x-portable-anymap", ["pnm"]), ("x-portable-bitmap", ["pbm"]),
      ("x-portable-graymap", ["pgm"]), ("x-portable-pixmap", ["ppm"]),
      ("x-quicktime", ["qti", "qtif"]), ("x-rgb", ["rgb"]), ("x-samsung-srw", ["srw"]),
      ("x-sigma-x3f", ["x3f"]), ("x-sony-arw", ["arw"]), ("x-sony-sr2", ["sr2"]),
      ("x-tga", ["tga"]), ("x-xbitmap", ["xbm"]), ("x-xpixmap", ["xpm"]),
      ("x-xwindowdump", ["xwd"])]),
    ("audio/", [("aac", ["aac", "adts"]), ("ac3", ["ac3"]),
      ("aiff", ["aif", "aifc", "aiff", "cdda"]), ("annodex", ["axa"]), ("audible", ["aa"]),
      ("basic", ["au", "snd"]), ("flac", ["flac"]), ("m4a", ["m4a"]), ("m4b", ["m4b"]),
      ("m4p", ["m4p"]), ("mid", ["mid", "midi", "rmi"]), ("midi", ["kar"]), ("mp4", ["mp4a"]),
      ("mpeg", ["m2a", "m3a", "mp2a", "mp3", "mpga"]), ("ogg", ["oga", "ogg", "opus", "spx"]),
      ("s3m", ["s3m"]), ("scpls", ["pls"]), ("silk", ["sil"]), ("vnd.audible.aax", ["aax"]),
      ("vnd.dece.audio", ["uva", "uvva"]), ("vnd.digital-winds", ["eol"]),
      ("vnd.dlna.adts", ["adt"]), ("vnd.dra", ["dra"]), ("vnd.dts", ["dts"]),
      ("vnd.dts.hd", ["dtshd"]), ("vnd.lucent.voice", ["lvp"]),
      ("vnd.ms-playready.media.pya", ["pya"]), ("vnd.nuera.ecelp4800", ["ecelp4800"]),
      ("vnd.nuera.ecelp7470", ["ecelp7470"]), ("vnd.nuera.ecelp9600", ["ecelp9600"]),
      ("vnd.rip", ["rip"]), ("wav", ["wav", "wave"]), ("webm", ["weba"]), ("x-caf", ["caf"]),
      ("x-gsm", ["gsm"]), ("x-m4r", ["m4r"]), ("x-matroska", ["mka"]),
      ("x-mpegurl", ["m3u", "m3u8"]), ("x-ms-wax", ["wax"]), ("x-ms-wma", ["wma"]),
      ("x-pn-realaudio", ["ra", "ram"]), ("x-pn-realaudio-plugin", ["rpm"]), ("x-sd2", ["sd2"]),
      ("x-smd", ["smd", "smx", "smz"]), ("xm", ["xm"])]),
    ("video/", [("3gpp", ["3gp", "3gpp"]), ("3gpp2", ["3g2", "3gp2"]), ("annodex", ["axv"]),
      ("divx", ["divx"]), ("h261", ["h261"]), ("h263", ["h263"]), ("h264", ["h264"]),
      ("jpeg", ["jpgv"]), ("jpm", ["jpgm"]), ("mj2", ["mj2", "mjp2"]),
      ("mp4", ["mp4", "mp4v", "mpg4"]),
      ("mpeg", ["m1v", "m2v", "mod", "mp2", "mp2v", "mpa", "mpe", "mpeg", "mpg", "mpv2", "vbk"]),
      ("ogg", ["ogv"]), ("quicktime", ["mov", "mqv", "qt"]), ("vnd.dece.hd", ["uvh", "uvvh"]),
      ("vnd.dece.mobile", ["uvm", "uvvm"]), ("vnd.dece.pd", ["uvp", "uvvp"]),
      ("vnd.dece.sd", ["uvs", "uvvs"]), ("vnd.dece.video", ["uvv", "uvvv"]),
      ("vnd.dlna.mpeg-tts", ["m2t", "m2ts", "mts", "ts", "tts"]), ("vnd.dvb.file", ["dvb"]),
      ("vnd.fvt", ["fvt"]), ("vnd.mpegurl", ["m4u", "mxu"]),
      ("vnd.ms-playready.media.pyv", ["pyv"]), ("vnd.uvvu.mp4", ["uvu", "uvvu"]),
      ("vnd.vivo", ["viv"]), ("webm", ["webm"]), ("x-dv", ["dif", "dv"]), ("x-f4v", ["f4v"]),
      ("x-fli", ["fli"]), ("x-flv", ["flv"]), ("x-ivf", ["ivf"]), ("x-la-asf", ["lsf", "lsx"]),
      ("x-m4v", ["m4v"]), ("x-matroska", ["mk3d", "mks", "mkv"]), ("x-mng", ["mng"]),
      ("x-ms-asf", ["asf", "asr", "asx", "nsc"]), ("x-ms-vob", ["vob"]), ("x-ms-wm", ["wm"]),
      ("x-ms-wmp", ["wmp"]), ("x-ms-wmv", ["wmv"]), ("x-ms-wmx", ["wmx"]), ("x-ms-wvx", ["wvx"]),
      ("x-msvideo", ["avi"]), ("x-sgi-movie", ["movie"]), ("x-smv", ["smv"])]),
    ("chemical/", [("x-cdx", ["cdx"]), ("x-cif", ["cif"]), ("x-cmdf", ["cmdf"]), ("x-cml", ["cml"]),
      ("x-csml", ["csml"]), ("x-xyz", ["xyz"])]),
    ("drawing/", [("x-dwf", ["dwf"])]),
    ("model/", [("gltf+json", ["gltf"]), ("gltf-binary", ["glb"]), ("iges", ["iges", "igs"]),
      ("mesh", ["mesh", "msh", "silo"]), ("vnd.collada+xml", ["dae"]), ("vnd.gdl", ["gdl"]),
      ("vnd.gtw", ["gtw"]), ("vnd.vtu", ["vtu"]), ("vrml", ["vrml"]),
      ("x3d+binary", ["x3db", "x3dbz"]), ("x3d+vrml", ["x3dv", "x3dvz"]),
      ("x3d+xml", ["x3d", "x3dz"])]),
    ("x-world/", [("x-vrml", ["flr", "wrl", "wrz", "xaf", "xof"])])]

/-- Files for an application, of a registered type or of none. -/
def applicationFamilies : List (String × List (String × List String)) :=
  [("application/", [("acad", ["dwg"]), ("andrew-inset", ["ez"]), ("annodex", ["anx"]),
      ("applixware", ["aw"]), ("atom+xml", ["atom"]), ("atomcat+xml", ["atomcat"]),
      ("atomsvc+xml", ["atomsvc"]), ("bdoc", ["bdoc"]), ("ccxml+xml", ["ccxml"]),
      ("cdmi-capability", ["cdmia"]), ("cdmi-container", ["cdmic"]), ("cdmi-domain", ["cdmid"]),
      ("cdmi-object", ["cdmio"]), ("cdmi-queue", ["cdmiq"]), ("cu-seeme", ["cu"]),
      ("dash+xml", ["mpd"]), ("davmount+xml", ["davmount"]), ("directx", ["x"]),
      ("docbook+xml", ["dbk"]), ("dssc+der", ["dssc"]), ("dssc+xml", ["xdssc"]),
      ("ecmascript", ["ecma", "es"]), ("emma+xml", ["emma"]), ("envoy", ["evy"]),
      ("epub+zip", ["epub"]), ("etl", ["etl"]), ("exi", ["exi"]), ("font-tdpfr", ["pfr"]),
      ("fractals", ["fif"]), ("fsharp-script", ["fsscript", "fsx"]), ("futuresplash", ["spl"]),
      ("geo+json", ["geojson"]), ("gml+xml", ["gml"]), ("gpx+xml", ["gpx"]), ("gxf", ["gxf"]),
      ("gzip", ["gz"]), ("hjson", ["hjson"]), ("hta", ["hta"]), ("hyperstudio", ["stk"]),
      ("inkml+xml", ["ink", "inkml"]), ("internet-property-stream", ["acx"]), ("ipfix", ["ipfix"]),
      ("java-archive", ["ear", "jar", "war"]), ("java-serialized-object", ["ser"]),
      ("json", ["json"]), ("json5", ["json5"]), ("jsonml+json", ["jsonml"]),
      ("ld+json", ["jsonld"]), ("liquidmotion", ["jck", "jcz"]), ("lost+xml", ["lostxml"]),
      ("mac-binhex40", ["hqx"]), ("mac-compactpro", ["cpt"]), ("mads+xml", ["mads"]),
      ("manifest+json", ["webmanifest"]), ("marc", ["mrc"]), ("marcxml+xml", ["mrcx"]),
      ("mathematica", ["ma", "mb", "nb"]), ("mathml+xml", ["mathml"]), ("mbox", ["mbox"]),
      ("mediaservercontrol+xml", ["mscml"]), ("metalink+xml", ["metalink"]),
      ("metalink4+xml", ["meta4"]), ("mets+xml", ["mets"]), ("mods+xml", ["mods"]),
      ("mp21", ["m21", "mp21"]), ("mp4", ["mp4s"]), ("mpeg", ["amc"]), ("ms-vsi", ["vsi"]),
      ("msaccess", ["accdb", "accde", "accdt", "ade", "adp", "mda", "mde"]),
      ("msaccess.addin", ["accda"]), ("msaccess.cab", ["accdc"]), ("msaccess.ftemplate", ["accft"]),
      ("msaccess.runtime", ["accdr"]), ("msaccess.webapplication", ["accdw"]),
      ("msword", ["doc", "dot", "wbk", "wiz"]), ("mxf", ["mxf"]), ("oda", ["oda"]),
      ("oebps-package+xml", ["opf"]), ("ogg", ["ogx"]), ("olescript", ["axs"]),
      ("omdoc+xml", ["omdoc"]),
      ("onenote", ["one", "onea", "onepkg", "onetmp", "onetoc", "onetoc2"]),
      ("opensearchdescription+xml", ["osdx"]), ("oxps", ["oxps"]), ("patch-ops-error+xml", ["xer"]),
      ("pdf", ["pdf"]), ("pgp-encrypted", ["pgp"]), ("pgp-signature", ["asc", "sig"]),
      ("pics-rules", ["prf"]), ("pkcs10", ["p10"]), ("pkcs7-mime", ["p7c", "p7m"]),
      ("pkcs7-signature", ["p7s"]), ("pkcs8", ["p8"]), ("pkix-attr-cert", ["ac"]),
      ("pkix-crl", ["crl"]), ("pkix-pkipath", ["pkipath"]), ("pkixcmp", ["pki"]),
      ("postscript", ["ai", "eps", "ps"]), ("PowerShell", ["psc1"]), ("prs.cww", ["cww"]),
      ("pskc+xml", ["pskcxml"]), ("raml+yaml", ["raml"]), ("rat-file", ["rat"]),
      ("rdf+xml", ["rdf"]), ("reginfo+xml", ["rif"]), ("relax-ng-compact-syntax", ["rnc"]),
      ("resource-lists+xml", ["rl"]), ("resource-lists-diff+xml", ["rld"]),
      ("rpki-ghostbusters", ["gbr"]), ("rpki-manifest", ["mft"]), ("rpki-roa", ["roa"]),
      ("rsd+xml", ["rsd"]), ("rss+xml", ["rss"]), ("rtf", ["rtf"]), ("sbml+xml", ["sbml"]),
      ("scvp-cv-request", ["scq"]), ("scvp-cv-response", ["scs"]), ("scvp-vp-request", ["spq"]),
      ("scvp-vp-response", ["spp"]), ("sdp", ["sdp"]), ("set-payment-initiation", ["setpay"]),
      ("set-registration-initiation", ["setreg"]), ("shf+xml", ["shf"]), ("smil+xml", ["smil"]),
      ("sparql-query", ["rq"]), ("sparql-results+xml", ["srx"]), ("srgs", ["gram"]),
      ("srgs+xml", ["grxml"]), ("sru+xml", ["sru"]), ("ssdl+xml", ["ssdl"]), ("ssml+xml", ["ssml"]),
      ("step", ["step", "stp"]), ("streamingmedia", ["ssm"]), ("tei+xml", ["tei", "teicorpus"]),
      ("thraud+xml", ["tfi"]), ("timestamped-data", ["tsd"]), ("voicexml+xml", ["vxml"]),
      ("vsix", ["vsix"]), ("wasm", ["wasm"]), ("widget", ["wgt"]),
      ("windows-library+xml", ["library-ms"]),
      ("windows-search-connector+xml", ["searchconnector-ms"]), ("winhlp", ["hlp"]),
      ("wlmoviemaker", ["wlmp"]), ("wspolicy+xml", ["wspolicy"]), ("xaml+xml", ["xaml"]),
      ("xcap-diff+xml", ["xdf"]), ("xenc+xml", ["xenc"]), ("xhtml+xml", ["xht", "xhtml"]),
      ("xml", ["asa", "asax", "ascx", "ashx", "asmx", "aspx", "config", "coverage", "datasource",
        "dgml", "filters", "generictest", "hxa", "hxc", "hxe", "hxf", "hxk", "hxv", "loadtest",
        "master", "mtx", "orderedtest", "psess", "rdlc", "resx", "rng", "ruleset", "settings",
        "sitemap", "skin", "snippet", "svc", "testrunconfig", "testsettings", "trx", "vcproj",
        "vcxproj", "vscontent", "vsmdi", "webtest", "wiq", "xmta", "xsc", "xss"]),
      ("xop+xml", ["xop"]), ("xproc+xml", ["xpl"]), ("xspf+xml", ["xspf"]),
      ("xv+xml", ["mxml", "xhvml", "xvm", "xvml"]), ("yang", ["yang"]), ("yin+xml", ["yin"]),
      ("zip", ["zip"])]),
    ("application/x-", [("7z-compressed", ["7z"]), ("abiword", ["abw"]),
      ("ace-compressed", ["ace"]), ("apple-diskimage", ["dmg"]), ("arj", ["arj"]),
      ("authorware-bin", ["aab", "vox", "x32"]), ("authorware-map", ["aam"]),
      ("authorware-seg", ["aas"]), ("bcpio", ["bcpio"]), ("bittorrent", ["torrent"]),
      ("blorb", ["blb", "blorb"]), ("bridge-url", ["adobebridge"]), ("bzip", ["bz"]),
      ("bzip2", ["boz", "bz2"]), ("cbr", ["cb7", "cba", "cbr", "cbt", "cbz"]), ("cdf", ["cdf"]),
      ("cdlink", ["vcd"]), ("cfs-compressed", ["cfs"]), ("chat", ["chat"]), ("chess-pgn", ["pgn"]),
      ("chrome-extension", ["crx"]), ("cocoa", ["cco"]), ("compress", ["z"]),
      ("compressed", ["tgz"]), ("cpio", ["cpio"]), ("csh", ["csh"]),
      ("debian-package", ["deb", "udeb"]), ("dgc-compressed", ["dgc"]),
      ("director", ["cct", "cst", "cxt", "dcr", "dir", "dxr", "fgd", "swa", "w3d"]),
      ("doom", ["wad"]), ("dtbncx+xml", ["ncx"]), ("dtbook+xml", ["dtb"]),
      ("dtbresource+xml", ["res"]), ("dvi", ["dvi"]), ("dxf", ["dxf"]), ("eva", ["eva"]),
      ("font-bdf", ["bdf"]), ("font-ghostscript", ["gsf"]), ("font-linux-psf", ["psf"]),
      ("font-pcf", ["pcf"]), ("font-snf", ["snf"]), ("font-type1", ["pfa"]), ("freearc", ["arc"]),
      ("gca-compressed", ["gca"]), ("glulx", ["ulx"]), ("gnumeric", ["gnumeric"]),
      ("gramps-xml", ["gramps"]), ("gtar", ["gtar"]), ("hdf", ["hdf"]), ("httpd-php", ["php"]),
      ("install-instructions", ["install"]), ("internet-signup", ["ins", "isp"]),
      ("iphone", ["iii"]), ("iso9660-image", ["iso"]), ("itunes-ipa", ["ipa"]),
      ("itunes-ipg", ["ipg"]), ("itunes-ipsw", ["ipsw"]), ("itunes-ite", ["ite"]),
      ("itunes-itlp", ["itlp"]), ("itunes-itms", ["itms"]), ("itunes-itpc", ["itpc"]),
      ("java-applet", ["class"]), ("java-archive-diff", ["jardiff"]), ("java-jnlp-file", ["jnlp"]),
      ("koan", ["skp"]), ("latex", ["latex"]), ("lua-bytecode", ["luac"]),
      ("lzh-compressed", ["lha"]), ("makeself", ["run"]), ("mie", ["mie"]),
      ("miva-compiled", ["mvc"]), ("mmxp", ["mxp"]), ("mobipocket-ebook", ["mobi", "prc"]),
      ("ms-application", ["application"]), ("ms-license", ["slupkg-ms"]),
      ("ms-manifest", ["manifest"]), ("ms-reader", ["lit"]), ("ms-shortcut", ["lnk"]),
      ("ms-vsto", ["vsto"]), ("ms-wmd", ["wmd"]), ("ms-wmz", ["wmz"]), ("ms-xbap", ["xbap"]),
      ("msaccess", ["mdb"]), ("msbinder", ["obd"]), ("mscardfile", ["crd"]), ("msclip", ["clp"]),
      ("msdownload", ["bat", "com", "dll"]), ("msmediaview", ["m13", "m14", "mvb"]),
      ("msmetafile", ["emf", "wmf"]), ("msmoney", ["mny"]), ("mspublisher", ["pub"]),
      ("msschedule", ["scd"]), ("msterminal", ["trm"]), ("mswrite", ["wri"]), ("netcdf", ["nc"]),
      ("ns-proxy-autoconfig", ["pac"]), ("nzb", ["nzb"]), ("oleobject", ["hhc"]),
      ("perfmon", ["pma", "pmc", "pml", "pmr", "pmw"]), ("perl", ["pl", "pm"]),
      ("pkcs12", ["p12", "pfx"]), ("pkcs7-certificates", ["p7b", "spc"]),
      ("pkcs7-certreqresp", ["p7r"]), ("podcast", ["pcast"]), ("quicktimeplayer", ["qtl"]),
      ("rar-compressed", ["rar"]), ("research-info-systems", ["ris"]),
      ("safari-safariextz", ["safariextz"]), ("safari-webarchive", ["webarchive"]),
      ("sgimb", ["sgimb"]), ("sh", ["sh"]), ("shar", ["shar"]), ("shockwave-flash", ["mfp", "swf"]),
      ("silverlight-app", ["xap"]), ("smaf", ["mmf"]), ("sql", ["sql"]), ("stuffit", ["sit"]),
      ("stuffitx", ["sitx"]), ("subrip", ["srt"]), ("sv4cpio", ["sv4cpio"]), ("sv4crc", ["sv4crc"]),
      ("t3vm-image", ["t3"]), ("tads", ["gam"]), ("tar", ["tar"]), ("tcl", ["tcl", "tk"]),
      ("tex", ["tex"]), ("tex-tfm", ["tfm"]), ("texinfo", ["texi", "texinfo"]), ("tgif", ["obj"]),
      ("troff", ["roff", "t", "tr"]), ("troff-man", ["man"]), ("troff-me", ["me"]),
      ("troff-ms", ["ms"]), ("ustar", ["ustar"]), ("virtualbox-hdd", ["hdd"]),
      ("virtualbox-ova", ["ova"]), ("virtualbox-ovf", ["ovf"]), ("virtualbox-vbox", ["vbox"]),
      ("virtualbox-vbox-extpack", ["vbox-extpack"]), ("virtualbox-vdi", ["vdi"]),
      ("virtualbox-vhd", ["vhd"]), ("virtualbox-vmdk", ["vmdk"]), ("wais-source", ["src"]),
      ("web-app-manifest+json", ["webapp"]), ("wlpg-detect", ["wlpginstall"]),
      ("wlpg3-detect", ["wlpginstall3"]), ("x509-ca-cert", ["cer", "crt", "der", "pem"]),
      ("xfig", ["fig"]), ("xliff+xml", ["xlf"]), ("xpinstall", ["xpi"]), ("xz", ["xz"]),
      ("zmachine", ["z1", "z2", "z3", "z4", "z5", "z6", "z7", "z8"])])]

/-- Files for an application, of a type of its vendor. -/
def vendorFamilies : List (String × List (String × List String)) :=
  [("application/vnd.", [("3gpp.pic-bw-large", ["plb"]), ("3gpp.pic-bw-small", ["psb"]),
      ("3gpp.pic-bw-var", ["pvb"]), ("3gpp2.tcap", ["tcap"]), ("3m.post-it-notes", ["pwn"]),
      ("accpac.simply.aso", ["aso"]), ("accpac.simply.imp", ["imp"]), ("acucobol", ["acu"]),
      ("acucorp", ["acutc", "atc"]), ("adobe.air-application-installer-package+zip", ["air"]),
      ("adobe.formscentral.fcdt", ["fcdt"]), ("adobe.fxp", ["fxp", "fxpl"]),
      ("adobe.xdp+xml", ["xdp"]), ("adobe.xfdf", ["xfdf"]), ("ahead.space", ["ahead"]),
      ("airzip.filesecure.azf", ["azf"]), ("airzip.filesecure.azs", ["azs"]),
      ("amazon.ebook", ["azw"]), ("americandynamics.acc", ["acc"]), ("amiga.ami", ["ami"]),
      ("android.package-archive", ["apk"]), ("anser-web-certificate-issue-initiation", ["cii"]),
      ("anser-web-funds-transfer-initiation", ["fti"]), ("antix.game-component", ["atx"]),
      ("apple.installer+xml", ["mpkg"]), ("apple.pkpass", ["pkpass"]),
      ("aristanetworks.swi", ["swi"]), ("astraea-software.iota", ["iota"]), ("audiograph", ["aep"]),
      ("blueice.multipass", ["mpm"]), ("bmi", ["bmi"]), ("businessobjects", ["rep"]),
      ("chemdraw+xml", ["cdxml"]), ("chipnuts.karaoke-mmd", ["mmd"]), ("cinderella", ["cdy"]),
      ("claymore", ["cla"]), ("cloanto.rp9", ["rp9"]),
      ("clonk.c4group", ["c4d", "c4f", "c4g", "c4p", "c4u"]),
      ("cluetrust.cartomobile-config", ["c11amc"]),
      ("cluetrust.cartomobile-config-pkg", ["c11amz"]), ("commonspace", ["csp"]),
      ("contact.cmsg", ["cdbcmsg"]), ("cosmocaller", ["cmc"]), ("crick.clicker", ["clkx"]),
      ("crick.clicker.keyboard", ["clkk"]), ("crick.clicker.palette", ["clkp"]),
      ("crick.clicker.template", ["clkt"]), ("crick.clicker.wordbank", ["clkw"]),
      ("criticaltools.wbs+xml", ["wbs"]), ("cups-ppd", ["ppd"]), ("curl.car", ["car"]),
      ("curl.pcurl", ["pcurl"]), ("dart", ["dart"]), ("data-vision.rdz", ["rdz"]),
      ("dece.data", ["uvd", "uvf", "uvvd", "uvvf"]), ("dece.ttml+xml", ["uvt", "uvvt"]),
      ("dece.unspecified", ["uvvx", "uvx"]), ("dece.zip", ["uvvz", "uvz"]),
      ("denovo.fcselayout-link", ["fe_launch"]), ("dna", ["dna"]), ("dolby.mlp", ["mlp"]),
      ("dpgraph", ["dpg"]), ("dreamfactory", ["dfac"]), ("ds-keypoint", ["kpxx"]),
      ("dvb.ait", ["ait"]), ("dynageo", ["geo"]), ("ecowin.chart", ["mag"]), ("enliven", ["nml"]),
      ("epson.esf", ["esf"]), ("epson.msf", ["msf"]), ("epson.quickanime", ["qam"]),
      ("epson.salt", ["slt"]), ("epson.ssf", ["ssf"]), ("eszigno3+xml", ["es3", "et3"]),
      ("ezpix-album", ["ez2"]), ("ezpix-package", ["ez3"]), ("fdf", ["fdf"]),
      ("fdsn.mseed", ["mseed"]), ("fdsn.seed", ["dataless", "seed"]), ("flographit", ["gph"]),
      ("fluxtime.clip", ["ftc"]), ("framemaker", ["book", "fm", "frame", "maker"]),
      ("frogans.fnc", ["fnc"]), ("frogans.ltf", ["ltf"]), ("fsc.weblaunch", ["fsc"]),
      ("fujitsu.oasys", ["oas"]), ("fujitsu.oasys2", ["oa2"]), ("fujitsu.oasys3", ["oa3"]),
      ("fujitsu.oasysgp", ["fg5"]), ("fujitsu.oasysprs", ["bh2"]), ("fujixerox.ddd", ["ddd"]),
      ("fujixerox.docuworks", ["xdw"]), ("fujixerox.docuworks.binder", ["xbd"]),
      ("fuzzysheet", ["fzs"]), ("genomatix.tuxedo", ["txd"]), ("geogebra.file", ["ggb"]),
      ("geogebra.tool", ["ggt"]), ("geometry-explorer", ["gex", "gre"]), ("geonext", ["gxt"]),
      ("geoplan", ["g2w"]), ("geospace", ["g3w"]), ("gmx", ["gmx"]),
      ("google-apps.document", ["gdoc"]), ("google-apps.presentation", ["gslides"]),
      ("google-apps.spreadsheet", ["gsheet"]), ("google-earth.kml+xml", ["kml"]),
      ("google-earth.kmz", ["kmz"]), ("grafeq", ["gqf", "gqs"]), ("groove-account", ["gac"]),
      ("groove-help", ["ghf"]), ("groove-identity-message", ["gim"]), ("groove-injector", ["grv"]),
      ("groove-tool-message", ["gtm"]), ("groove-tool-template", ["tpl"]),
      ("groove-vcard", ["vcg"]), ("hal+xml", ["hal"]), ("handheld-entertainment+xml", ["zmm"]),
      ("hbci", ["hbci"]), ("hhe.lesson-player", ["les"]), ("hp-hpgl", ["hpgl"]),
      ("hp-hpid", ["hpid"]), ("hp-hps", ["hps"]), ("hp-jlyt", ["jlt"]), ("hp-pcl", ["pcl"]),
      ("hp-pclxl", ["pclxl"]), ("hydrostatix.sof-data", ["sfd-hdstx"]), ("ibm.minipay", ["mpy"]),
      ("ibm.modcap", ["afp", "list3820", "listafp"]), ("ibm.rights-management", ["irm"]),
      ("ibm.secure-container", ["sc"]), ("iccprofile", ["icc", "icm"]), ("igloader", ["igl"]),
      ("immervision-ivp", ["ivp"]), ("immervision-ivu", ["ivu"]), ("insors.igm", ["igm"]),
      ("intercon.formnet", ["xpw", "xpx"]), ("intergeo", ["i2g"]), ("intu.qbo", ["qbo"]),
      ("intu.qfx", ["qfx"]), ("ipunplugged.rcprofile", ["rcprofile"]),
      ("irepository.package+xml", ["irp"]), ("is-xpr", ["xpr"]), ("isac.fcs", ["fcs"]),
      ("jam", ["jam"]), ("jcp.javame.midlet-rms", ["rms"]), ("jisp", ["jisp"]),
      ("joost.joda-archive", ["joda"]), ("kahootz", ["ktr", "ktz"]), ("kde.karbon", ["karbon"]),
      ("kde.kchart", ["chrt"]), ("kde.kformula", ["kfo"]), ("kde.kivio", ["flw"]),
      ("kde.kontour", ["kon"]), ("kde.kpresenter", ["kpr", "kpt"]), ("kde.kspread", ["ksp"]),
      ("kde.kword", ["kwd", "kwt"]), ("kenameaapp", ["htke"]), ("kidspiration", ["kia"]),
      ("kinar", ["kne", "knp"]), ("koan", ["skd", "skm", "skt"]), ("kodak-descriptor", ["sse"]),
      ("las.las+xml", ["lasxml"]), ("llamagraphics.life-balance.desktop", ["lbd"]),
      ("llamagraphics.life-balance.exchange+xml", ["lbe"]), ("lotus-1-2-3", ["123"]),
      ("lotus-approach", ["apr"]), ("lotus-freelance", ["pre"]), ("lotus-notes", ["nsf"]),
      ("lotus-organizer", ["org"]), ("lotus-screencam", ["scm"]), ("lotus-wordpro", ["lwp"]),
      ("macports.portpkg", ["portpkg"]), ("mcd", ["mcd"]), ("medcalcdata", ["mc1"]),
      ("mediastation.cdkey", ["cdkey"]), ("mfer", ["mwf"]), ("mfmp", ["mfm"]),
      ("micrografx.flo", ["flo"]), ("micrografx.igx", ["igx"]), ("mif", ["mif"]),
      ("mobius.daf", ["daf"]), ("mobius.dis", ["dis"]), ("mobius.mbk", ["mbk"]),
      ("mobius.mqy", ["mqy"]), ("mobius.msl", ["msl"]), ("mobius.plc", ["plc"]),
      ("mobius.txf", ["txf"]), ("mophun.application", ["mpn"]), ("mophun.certificate", ["mpc"]),
      ("mozilla.xul+xml", ["xul"]), ("ms-artgalry", ["cil"]),
      ("ms-excel", ["slk", "xla", "xlc", "xld", "xlk", "xll", "xlm", "xls", "xlt", "xlw"]),
      ("ms-excel.addin.macroEnabled.12", ["xlam"]),
      ("ms-excel.sheet.binary.macroEnabled.12", ["xlsb"]),
      ("ms-excel.sheet.macroEnabled.12", ["xlsm"]), ("ms-excel.template.macroEnabled.12", ["xltm"]),
      ("ms-fontobject", ["eot"]), ("ms-ims", ["ims"]), ("ms-lrm", ["lrm"]),
      ("ms-mediapackage", ["mpf"]), ("ms-office.calx", ["calx"]), ("ms-officetheme", ["thmx"]),
      ("ms-outlook", ["msg", "pst"]), ("ms-pki.certstore", ["sst"]), ("ms-pki.pko", ["pko"]),
      ("ms-pki.seccat", ["cat"]), ("ms-pki.stl", ["stl"]),
      ("ms-powerpoint", ["pot", "ppa", "pps", "ppt", "pwz"]),
      ("ms-powerpoint.addin.macroEnabled.12", ["ppam"]),
      ("ms-powerpoint.presentation.macroEnabled.12", ["pptm"]),
      ("ms-powerpoint.slide.macroEnabled.12", ["sldm"]),
      ("ms-powerpoint.slideshow.macroEnabled.12", ["ppsm"]),
      ("ms-powerpoint.template.macroEnabled.12", ["potm"]), ("ms-project", ["mpp", "mpt"]),
      ("ms-visio.viewer", ["vdx"]), ("ms-word.document.macroEnabled.12", ["docm"]),
      ("ms-word.template.macroEnabled.12", ["dotm"]), ("ms-works", ["wcm", "wdb", "wks", "wps"]),
      ("ms-wpl", ["wpl"]), ("ms-xpsdocument", ["xps"]), ("mseq", ["mseq"]), ("musician", ["mus"]),
      ("muvee.style", ["msty"]), ("mynfc", ["taglet"]), ("neurolanguage.nlu", ["nlu"]),
      ("nitf", ["nitf", "ntf"]), ("noblenet-directory", ["nnd"]), ("noblenet-sealer", ["nns"]),
      ("noblenet-web", ["nnw"]), ("nokia.n-gage.data", ["ngdat"]),
      ("nokia.n-gage.symbian.install", ["n-gage"]), ("nokia.radio-preset", ["rpst"]),
      ("nokia.radio-presets", ["rpss"]), ("novadigm.edm", ["edm"]), ("novadigm.edx", ["edx"]),
      ("novadigm.ext", ["ext"]), ("oasis.opendocument.chart", ["odc"]),
      ("oasis.opendocument.chart-template", ["otc"]), ("oasis.opendocument.database", ["odb"]),
      ("oasis.opendocument.formula", ["odf"]), ("oasis.opendocument.formula-template", ["odft"]),
      ("oasis.opendocument.graphics", ["odg"]), ("oasis.opendocument.graphics-template", ["otg"]),
      ("oasis.opendocument.image", ["odi"]), ("oasis.opendocument.image-template", ["oti"]),
      ("oasis.opendocument.presentation", ["odp"]),
      ("oasis.opendocument.presentation-template", ["otp"]),
      ("oasis.opendocument.spreadsheet", ["ods"]),
      ("oasis.opendocument.spreadsheet-template", ["ots"]), ("oasis.opendocument.text", ["odt"]),
      ("oasis.opendocument.text-master", ["odm"]), ("oasis.opendocument.text-template", ["ott"]),
      ("oasis.opendocument.text-web", ["oth"]), ("olpc-sugar", ["xo"]), ("oma.dd2+xml", ["dd2"]),
      ("openofficeorg.extension", ["oxt"]),
      ("openxmlformats-officedocument.presentationml.presentation", ["pptx"]),
      ("openxmlformats-officedocument.presentationml.slide", ["sldx"]),
      ("openxmlformats-officedocument.presentationml.slideshow", ["ppsx"]),
      ("openxmlformats-officedocument.presentationml.template", ["potx"]),
      ("openxmlformats-officedocument.spreadsheetml.sheet", ["xlsx"]),
      ("openxmlformats-officedocument.spreadsheetml.template", ["xltx"]),
      ("openxmlformats-officedocument.wordprocessingml.document", ["docx"]),
      ("openxmlformats-officedocument.wordprocessingml.template", ["dotx"]),
      ("osgeo.mapguide.package", ["mgp"]), ("osgi.dp", ["dp"]), ("osgi.subsystem", ["esa"]),
      ("palm", ["oprc", "pdb", "pqa"]), ("pawaafile", ["paw"]), ("pg.format", ["str"]),
      ("pg.osasli", ["ei6"]), ("picsel", ["efif"]), ("pmi.widget", ["wg"]),
      ("pocketlearn", ["plf"]), ("powerbuilder6", ["pbd"]), ("previewsystems.box", ["box"]),
      ("proteus.magazine", ["mgz"]), ("publishare-delta-tree", ["qps"]), ("pvi.ptid1", ["ptid"]),
      ("quark.quarkxpress", ["qwd", "qwt", "qxb", "qxl", "qxt"]), ("realvnc.bed", ["bed"]),
      ("recordare.musicxml", ["mxl"]), ("recordare.musicxml+xml", ["musicxml"]),
      ("rig.cryptonote", ["cryptonote"]), ("rn-realmedia", ["rm"]), ("rn-realmedia-vbr", ["rmvb"]),
      ("rn-rn_music_package", ["rmp"]), ("route66.link66+xml", ["link66"]),
      ("sailingtracker.track", ["st"]), ("seemail", ["see"]), ("sema", ["sema"]),
      ("semd", ["semd"]), ("semf", ["semf"]), ("shana.informed.formdata", ["ifm"]),
      ("shana.informed.formtemplate", ["itp"]), ("shana.informed.interchange", ["iif"]),
      ("shana.informed.package", ["ipk"]), ("simtech-mindmapper", ["twd", "twds"]),
      ("smart.teacher", ["teacher"]), ("solent.sdkm+xml", ["sdkd", "sdkm"]),
      ("spotfire.dxp", ["dxp"]), ("spotfire.sfs", ["sfs"]), ("stardivision.calc", ["sdc"]),
      ("stardivision.draw", ["sda"]), ("stardivision.impress", ["sdd"]),
      ("stardivision.math", ["smf"]), ("stardivision.writer", ["sdw", "vor"]),
      ("stardivision.writer-global", ["sgl"]), ("stepmania.package", ["smzip"]),
      ("stepmania.stepchart", ["sm"]), ("sun.xml.calc", ["sxc"]),
      ("sun.xml.calc.template", ["stc"]), ("sun.xml.draw", ["sxd"]),
      ("sun.xml.draw.template", ["std"]), ("sun.xml.impress", ["sxi"]),
      ("sun.xml.impress.template", ["sti"]), ("sun.xml.math", ["sxm"]), ("sun.xml.writer", ["sxw"]),
      ("sun.xml.writer.global", ["sxg"]), ("sun.xml.writer.template", ["stw"]),
      ("sus-calendar", ["sus", "susp"]), ("svd", ["svd"]), ("symbian.install", ["sis", "sisx"]),
      ("syncml+xml", ["xsm"]), ("syncml.dm+wbxml", ["bdm"]), ("syncml.dm+xml", ["xdm"]),
      ("tao.intent-module-archive", ["tao"]), ("tcpdump.pcap", ["cap", "dmp", "pcap"]),
      ("tmobile-livetv", ["tmo"]), ("trid.tpt", ["tpt"]), ("triscape.mxs", ["mxs"]),
      ("trueapp", ["tra"]), ("ufdl", ["ufd", "ufdl"]), ("uiq.theme", ["utz"]), ("umajin", ["umj"]),
      ("unity", ["unityweb"]), ("uoml+xml", ["uoml"]), ("vcx", ["vcx"]),
      ("visio", ["vsd", "vss", "vst", "vsw", "vsx", "vtx"]), ("visionary", ["vis"]),
      ("vsf", ["vsf"]), ("wap.wbxml", ["wbxml"]), ("wap.wmlc", ["wmlc"]),
      ("wap.wmlscriptc", ["wmlsc"]), ("webturbo", ["wtb"]), ("wolfram.player", ["nbp"]),
      ("wordperfect", ["wpd"]), ("wqd", ["wqd"]), ("wt.stf", ["stf"]), ("xara", ["xar"]),
      ("xfdl", ["xfdl"]), ("yamaha.hv-dic", ["hvd"]), ("yamaha.hv-script", ["hvs"]),
      ("yamaha.hv-voice", ["hvp"]), ("yamaha.openscoreformat", ["osf"]),
      ("yamaha.openscoreformat.osfpvg+xml", ["osfpvg"]), ("yamaha.smaf-audio", ["saf"]),
      ("yamaha.smaf-phrase", ["spf"]), ("yellowriver-custom-menu", ["cmp"]),
      ("zul", ["zir", "zirz"]), ("zzazz.deck+xml", ["zaz"])])]

end TurtleScript.Web
