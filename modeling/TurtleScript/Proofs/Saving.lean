-- A saved script is loaded as it was. The file holds the name and the tokens
-- only; what is read back from it are the same ones, and taking the tokens
-- again rebuilds the rest.
import TurtleScript.Format.Script
import TurtleScript.Proofs.Json.RoundTrip
import TurtleScript.Proofs.Numbering
import TurtleScript.Proofs.Rebuilding

namespace TurtleScript

/-! ## Records -/

theorem Json.listOf?_map {α : Type} {write : α → Json} {read? : Json → Option α}
    (h : ∀ a, read? (write a) = some a) (as : List α) :
    Json.listOf? read? (.arr (as.map write)) = some as := Json.mapM_map h as

theorem TokenKind.named?_name (k : TokenKind) : named? k.name = some k := by
  cases k <;> decide

theorem Token.ofRecord?_fields (t : Token) (rest : List (String × Json)) :
    ofRecord? Json.lenientName? (t.fields ++ rest) = some t := by
  have hname : (Json.lenientName? (.str t.kind.name)).bind TokenKind.named? = some t.kind :=
    TokenKind.named?_name t.kind
  have hline : Json.nat? (.int t.line) = some t.line := rfl
  simp [ofRecord?, Token.fields, Json.Record.field?, Json.Record.get?, hname, hline, Json.text?]

/-- A taken token is read back, with or without a tag. -/
theorem TaggedToken.ofJson?_toJson (t : TaggedToken) : ofJson? t.toJson = some t := by
  obtain ⟨token, owner⟩ := t
  have hread := Token.ofRecord?_fields token
  cases owner with
  | none =>
    have hplain := hread []
    rw [List.append_nil] at hplain
    have hwhole : Json.whole? (.obj token.fields) = some (.obj token.fields) := by
      simp [Json.whole?, Json.isReadable, Json.fieldsReadable, Token.fields]
    have hknown : Json.knownFields? ["type", "text", "lineNumber", "instructionId"] token.fields =
        some token.fields := by
      simp [Json.knownFields?, Token.fields]
    have howner : Json.Record.optional? token.fields "instructionId" Json.nat? = some none := by
      simp [Json.Record.optional?, Json.Record.get?, Token.fields]
    simp [ofJson?, toJson, hwhole, Json.fields?, hknown, hplain, howner]
  | some id =>
    have htagged := hread [("instructionId", .int id)]
    have hwhole : Json.whole? (.obj (token.fields ++ [("instructionId", .int id)])) =
        some (.obj (token.fields ++ [("instructionId", .int id)])) := by
      simp [Json.whole?, Json.isReadable, Json.fieldsReadable, Token.fields]
    have hknown : Json.knownFields? ["type", "text", "lineNumber", "instructionId"]
        (token.fields ++ [("instructionId", .int id)]) =
        some (token.fields ++ [("instructionId", .int id)]) := by
      simp [Json.knownFields?, Token.fields]
    have howner : Json.Record.optional? (token.fields ++ [("instructionId", .int id)])
        "instructionId" Json.nat? = some (some id) := by
      have hid : Json.nat? (.int id) = some id := rfl
      simp [Json.Record.optional?, Json.Record.get?, Token.fields, hid]
    simp [ofJson?, toJson, hwhole, Json.fields?, hknown, htagged, howner]

theorem Snapshot.ofJson?_toJson (s : Snapshot) : ofJson? s.toJson = some s := by
  have htokens := Json.listOf?_map TaggedToken.ofJson?_toJson s.tokens
  simp [ofJson?, toJson, Json.record?, Json.knownFields?, Json.Record.field?, Json.Record.get?,
    Json.text?, htokens]

/-! ## What fits in a file -/

/-- Lines and tags of a token are kept exactly. -/
def TaggedToken.Fits (t : TaggedToken) : Prop :=
  t.line ≤ Json.maxWhole ∧ ∀ id, t.owner = some id → id ≤ Json.maxWhole

theorem TaggedToken.Fits.isPlain {t : TaggedToken} (h : t.Fits) : t.toJson.isPlain = true := by
  obtain ⟨token, owner⟩ := t
  obtain ⟨hline, howner⟩ := h
  have hlineFits : Json.FitsWord (token.line : Nat) := hline
  cases owner with
  | none => simp [toJson, Token.fields, Json.isPlain, Json.fieldsPlain, hlineFits]
  | some id =>
    have hidFits : Json.FitsWord (id : Nat) := howner id rfl
    simp [toJson, Token.fields, Json.isPlain, Json.fieldsPlain, hlineFits, hidFits]

theorem Snapshot.isPlain_toJson {s : Snapshot} (h : ∀ t ∈ s.tokens, t.Fits) :
    s.toJson.isPlain = true := by
  have htokens : Json.arePlain (s.tokens.map TaggedToken.toJson) = true := by
    rw [Json.arePlain_iff]
    intro j hj
    obtain ⟨t, ht, rfl⟩ := List.mem_map.mp hj
    exact (h t ht).isPlain
  simp [toJson, Json.isPlain, Json.fieldsPlain, htokens]

theorem TaggedToken.depth_toJson (t : TaggedToken) : t.toJson.depth = 1 := by
  obtain ⟨token, owner⟩ := t
  cases owner <;> simp [toJson, Token.fields, Json.depth, Json.fieldsDepth]

theorem Snapshot.depth_toJson (s : Snapshot) : s.toJson.depth ≤ 3 := by
  have htokens : Json.itemsDepth (s.tokens.map TaggedToken.toJson) ≤ 1 := by
    induction s.tokens with
    | nil => simp [Json.itemsDepth]
    | cons t tokens ih =>
      simp only [List.map_cons, Json.itemsDepth, TaggedToken.depth_toJson]
      omega
  simp only [toJson, Json.depth, Json.fieldsDepth]
  omega

/-- A snapshot that fits is read back from its file. -/
theorem Snapshot.parse?_pretty {s : Snapshot} (h : ∀ t ∈ s.tokens, t.Fits) :
    (Json.parse? s.toJson.pretty).bind ofJson? = some s := by
  have hdepth : s.toJson.depth ≤ Json.maxDepth := Nat.le_trans s.depth_toJson (by decide)
  rw [Json.parse?_pretty (isPlain_toJson h) hdepth, Option.bind_some, ofJson?_toJson]

/-! ## What fits in memory -/

/-- The number of characters of some tokens. -/
def textLength : List Token → Nat
  | [] => 0
  | t :: tokens => t.text.length + textLength tokens

/-- The number of characters of a script's source. -/
def Script.sourceLength (s : Script) : Nat := textLength s.plainTokens

theorem lineBreaks_le (text : String) : lineBreaks text ≤ text.length := by
  rw [← String.length_toList]
  exact List.count_le_length

theorem length_pos_of_lex {t : Token} {line : Nat} (h : (lex t.text line).tokens = [t]) :
    0 < t.text.length := by
  obtain ⟨c, cs, htext, -, -⟩ := exists_toList_of_lex h
  rw [← String.length_toList, htext]
  simp

/-- No token starts on a later line than there are characters up to its end. -/
theorem InRow.line_le {line : Nat} {tokens : List Token} (h : InRow line tokens) :
    ∀ t ∈ tokens, t.line + 1 ≤ line + textLength tokens := by
  induction tokens generalizing line with
  | nil => simp
  | cons u tokens ih =>
    obtain ⟨hline, hlex, hrest⟩ := h
    have hpos := length_pos_of_lex hlex
    have hbreaks := lineBreaks_le u.text
    intro t ht
    rw [textLength]
    rcases List.mem_cons.mp ht with rfl | ht
    · omega
    · have htail := ih hrest t ht
      unfold Token.endLine at htail
      omega

/-- Every token has a character of its own. -/
theorem InRow.length_le {line : Nat} {tokens : List Token} (h : InRow line tokens) :
    tokens.length ≤ textLength tokens := by
  induction tokens generalizing line with
  | nil => simp
  | cons u tokens ih =>
    obtain ⟨-, hlex, hrest⟩ := h
    have hpos := length_pos_of_lex hlex
    have htail := ih hrest
    rw [List.length_cons, textLength]
    omega

theorem Script.Faithful.numbered {s : Script} (h : s.Faithful) : s.Numbered := by
  have hbare := numbered_empty.takeAll? h.rebuilt
  exact ⟨⟨hbare.waits.current, hbare.waits.blocks⟩, hbare.tags, hbare.spent⟩

/-- Lines and tags count characters of the source, so they fit wherever the source does. -/
theorem Script.Faithful.fits {s : Script} (h : s.Faithful) (hsize : s.sourceLength ≤ Json.maxWhole) :
    ∀ t ∈ s.tokens.toList, t.Fits := by
  have hcount : s.tokens.size = s.plainTokens.length := by simp [plainTokens]
  have hspent := h.numbered.spent
  have htokens := h.inRow.length_le
  unfold sourceLength at hsize
  intro t ht
  have hmem : t.toToken ∈ s.plainTokens := List.mem_map_of_mem ht
  have hline := h.inRow.line_le t.toToken hmem
  refine ⟨by omega, ?_⟩
  intro id hid
  have := h.numbered.tags t ht id hid
  omega

/-! ## The law of saving -/

theorem Script.Faithful.restore_snapshot {s : Script} (h : s.Faithful) :
    s.snapshot.restore = { s with error := none } := by
  have htokens : s.snapshot.tokens.map (·.toToken) = s.plainTokens := rfl
  rw [Snapshot.restore, htokens, replay_of_takeAll? h.rebuilt]
  rfl

/-- Every script that a store can hold is read back from its file with the same name and tokens,
and all else is rebuilt from these but an error. The file keeps numbers of sixty-four bits; no
memory holds a source that outgrows them. -/
theorem saved_script_is_restored (actions : List Action) (s : Script)
    (h : s ∈ (Store.after actions).script.entries) (hsize : s.sourceLength ≤ Json.maxWhole) :
    (Json.parse? s.saved).bind Snapshot.ofJson? = some s.snapshot ∧
    s.snapshot.restore = { s with error := none } ∧
    Script.load? s.saved = some { s with error := none } := by
  have hs := Store.faithful_of_mem_entries h
  have hread : (Json.parse? s.saved).bind Snapshot.ofJson? = some s.snapshot :=
    Snapshot.parse?_pretty (hs.fits hsize)
  refine ⟨hread, hs.restore_snapshot, ?_⟩
  unfold Script.load?
  rw [hread, Option.map_some, hs.restore_snapshot]

/-- A name that has to be escaped, and a statement that is still open when the script is saved. -/
def openActions : List Action :=
  [.rename "the \"long\"\n\\way\x07", .submit "lt 30 rp 2 [ fd\n", .submit "turn", .submit " 7 pu ] pd",
    .undo, .undo, .redo]

theorem open_statement_is_restored :
    (Store.after openActions).present.isIncomplete = true ∧
    (Store.after openActions).present ∈ (Store.after openActions).script.entries ∧
    (Store.after openActions).present.sourceLength ≤ Json.maxWhole ∧
    Script.load? (Store.after openActions).present.saved =
      some { (Store.after openActions).present with error := none } := by
  have hopen : (Store.after openActions).present.isIncomplete = true := by decide +kernel
  have hmem := (Store.after openActions).present_mem_entries
  have hsize : (Store.after openActions).present.sourceLength ≤ Json.maxWhole := by decide +kernel
  exact ⟨hopen, hmem, hsize, (saved_script_is_restored openActions _ hmem hsize).2.2⟩

end TurtleScript
