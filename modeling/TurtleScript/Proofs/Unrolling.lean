-- A loop does what its block does when the block is submitted that many times.
-- The block is read as the same statements inside a loop and outside, but for
-- their ids and lines, and neither of these has a part in what is drawn.
import TurtleScript.Proofs.Entries
import TurtleScript.Proofs.Joining
import TurtleScript.Proofs.Parsing
import TurtleScript.Proofs.Renumbering

namespace TurtleScript

/-! ## Texts without lines and white space -/

/-- The token as if it stood on no line. -/
def Token.unplaced (t : Token) : Token := { t with line := 0 }

/-- What counts of a text for the grammar. -/
def gist (text : String) : List Token := (solid (lex text 0).tokens).map Token.unplaced

theorem solid_append (ts us : List Token) : solid (ts ++ us) = solid ts ++ solid us :=
  List.filter_append ..

theorem solid_map_unplaced (ts : List Token) :
    (solid ts).map Token.unplaced = solid (ts.map Token.unplaced) := by
  unfold solid
  rw [List.filter_map]
  rfl

/-- Where a text begins makes no difference to its tokens but for their lines. -/
theorem lexChars_map_unplaced (line other : Nat) (cs : List Char) :
    (lexChars line cs).tokens.map Token.unplaced = (lexChars other cs).tokens.map Token.unplaced := by
  induction line, cs using lexChars.induct generalizing other with
  | case1 line => simp
  | case2 line c cs token ih =>
    rw [tokens_lexChars_cons, tokens_lexChars_cons, List.map_cons, List.map_cons]
    exact congrArg₂ _ rfl (ih _)

theorem gist_eq (text : String) (line : Nat) :
    gist text = (solid (lex text line).tokens).map Token.unplaced := by
  unfold gist lex
  rw [solid_map_unplaced, solid_map_unplaced, lexChars_map_unplaced 0 line]

theorem solid_gist (text : String) : solid (gist text) = gist text := by
  unfold gist
  rw [solid_map_unplaced]
  exact List.filter_filter .. |>.trans (by simp [solid])

/-- White space at a cut does not count. -/
theorem solid_joinTokens (us vs : List Token) : solid (joinTokens us vs) = solid us ++ solid vs := by
  rcases joinTokens_cases us vs with hjoin | ⟨front, u, v, rest, rfl, rfl, hu, hv, hjoin⟩
  · rw [hjoin, solid_append]
  · have hboth : ({ u with text := u.text ++ v.text } : Token).isBlank = true := hu
    rw [hjoin]
    simp [solid, hu, hv, hboth]

theorem gist_append {a b : String} (h : parted a.toList b.toList = true) :
    gist (a ++ b) = gist a ++ gist b := by
  rw [gist_eq b (lineAfter 0 (lex a 0).tokens)]
  unfold gist lex
  rw [String.toList_append, lexChars_append_parted 0 _ _ h, solid_joinTokens, List.map_append]

/-- A blank in front of a text cuts it off from what is before it. -/
theorem parted_of_head {a b : String} {c : Char} (h : b.toList.head? = some c)
    (hc : isWordChar c = false) : parted a.toList b.toList = true := by
  simp [parted, h, hc]

/-- A blank at the end of a text cuts it off from what is after it. -/
theorem parted_of_last {a b : String} {c : Char} (h : a.toList.getLast? = some c)
    (hc : isWordChar c = false) : parted a.toList b.toList = true := by
  simp [parted, h, hc]

theorem gist_of_lex {t : Token} (h : (lex t.text t.line).tokens = [t]) (ht : t.IsText) :
    gist t.text = [t.unplaced] := by
  have hsolid : t.isBlank = false := by
    rcases ht with hk | hk <;> simp [Token.isBlank, hk]
  rw [gist_eq t.text t.line, h]
  simp [solid, hsolid]

/-! ## Reading without lines -/

/-- A call makes the same of a token on any line, or refuses it on any line. -/
theorem Instruction.toOption_feed_unplaced (i : Instruction) (t : Token) :
    (i.feed t.unplaced).toOption = (i.feed t).toOption := by
  have hnumber : ∀ command param, (numberFor command param t.unplaced).toOption =
      (numberFor command param t).toOption := by
    intro command param
    unfold numberFor Token.unplaced
    cases Decimal.number? t.text <;> rfl
  have hbound : ∀ command param, ((numberFor command param t.unplaced).map fun x =>
      CallStep.bound (i.bind (.number param x))).toOption =
        ((numberFor command param t).map fun x =>
          CallStep.bound (i.bind (.number param x))).toOption := by
    intro command param
    have hsame := hnumber command param
    cases hleft : numberFor command param t.unplaced <;>
      cases hright : numberFor command param t <;>
      simp_all [Except.map, Except.toOption]
  unfold feed
  cases i.nextParam? with
  | none => rfl
  | some param =>
    have hkind : t.unplaced.kind = t.kind := rfl
    simp only [hkind]
    cases param.kind <;> cases t.kind <;> first | rfl | exact hbound _ _

theorem Script.advance?_unplaced (s : Script) (t : Token) : s.advance? t.unplaced = s.advance? t := by
  have hkind : t.unplaced.kind = t.kind := rfl
  have htext : t.unplaced.text = t.text := rfl
  unfold advance? step
  cases s.current with
  | some i =>
    have hfeed := i.toOption_feed_unplaced t
    simp only [stepInside]
    cases hleft : i.feed t.unplaced <;> cases hright : i.feed t <;>
      simp_all [Except.map, Except.toOption]
  | none =>
    simp only [stepOutside, hkind, htext]
    cases t.kind with
    | whitespace => rfl
    | bracketOpen => rfl
    | bracketClose =>
      simp only
      cases s.openBlocks.isEmpty <;> rfl
    | word | number => rfl

theorem Script.advanceAll?_unplaced (s : Script) (tokens : List Token) :
    s.advanceAll? (tokens.map Token.unplaced) = s.advanceAll? tokens := by
  induction tokens generalizing s with
  | nil => rfl
  | cons t tokens ih =>
    rw [List.map_cons, advanceAll?_cons, advanceAll?_cons, advance?_unplaced]
    congr 1
    exact funext ih

/-- A text is taken or refused by what counts of it. -/
theorem Script.advanceAll?_gist {s : Script} (h : s.WaitsRightly) (text : String) :
    s.core.advanceAll? (gist text) = (s.submitted? text).map core := by
  have hcore : s.core.WaitsRightly := h
  rw [gist_eq text s.nextLine, advanceAll?_unplaced, advanceAll?_solid hcore, advanceAll?_lex]

/-! ## Derivations with other ids -/

mutual
theorem DerivesScript.renumbered (k : Nat) {n m : Nat} {ts : List Token} {body : List Instruction} :
    DerivesScript n ts body m →
    DerivesScript (n + k) ts (body.map (·.renumbered (· + k))) (m + k)
  | .nil n => .nil (n + k)
  | .cons hstatement hbody => .cons (hstatement.renumbered k) (hbody.renumbered k)

theorem DerivesStatement.renumbered (k : Nat) {n m : Nat} {ts : List Token} {i : Instruction} :
    DerivesStatement n ts i m → DerivesStatement (n + k) ts (i.renumbered (· + k)) (m + k)
  | .call ht hl hargs => by
    have hrest := hargs.renumbered k
    rw [Nat.add_right_comm] at hrest
    have hcall := DerivesStatement.call ht hl hrest
    rw [← renumberedArgs_eq_map] at hcall
    exact hcall

theorem DerivesArgs.renumbered (k : Nat) {params : List Param} {n m : Nat} {ts : List Token}
    {args : List Arg} : DerivesArgs params n ts args m →
    DerivesArgs params (n + k) ts (args.map (·.renumbered (· + k))) (m + k)
  | .nil n => .nil (n + k)
  | .number ht hx hargs => .number ht hx (hargs.renumbered k)
  | .block hkind hleft hbody hright hargs =>
    .block hkind hleft (hbody.renumbered k) hright (hargs.renumbered k)
end

/-! ## Whole scripts as texts -/

/-- A text that is taken from the beginning, and leaves nothing open, is a script. -/
theorem exists_derivesScript {text : String} (h : (Script.empty.submit text).error = none)
    (hwhole : (Script.empty.submit text).isIncomplete = false) :
    ∃ body m, DerivesScript 0 (gist text) body m := by
  rw [Script.error_submit_eq_none_iff, Option.isSome_iff_exists] at h
  obtain ⟨r, hr⟩ := h
  rw [Script.submit_of_some hr] at hwhole
  have hread := Script.advanceAll?_gist Script.waitsRightly_empty text
  rw [hr, Script.advanceAll?_core, Option.map_some, Option.map_eq_some_iff] at hread
  obtain ⟨q, hq, hcore⟩ := hread
  have hsettled : q.isIncomplete = false := by
    have hsame : q.core.isIncomplete = r.core.isIncomplete := by rw [hcore]
    exact hsame.trans hwhole
  have hderives := Script.derivesScript_of_takeAll? hq hsettled
  rw [solid_gist] at hderives
  exact hderives

namespace Script

theorem drawing_settleAll {s : Script} {body : List Instruction}
    (h : ∀ i ∈ body, i.isComplete = true) (ho : s.openBlocks = []) :
    (s.settleAll body).drawing = performAll body s.drawing := by
  induction body generalizing s with
  | nil => rfl
  | cons i body ih =>
    have hi : i.isComplete = true := h i List.mem_cons_self
    have hdrawing : (s.settle i).drawing = i.perform s.drawing := by
      unfold settle
      rw [if_neg (by simp [hi]), ho]
    have hopen : (s.settle i).openBlocks = [] := (openBlocks_settle_eq_nil_iff hi).mpr ho
    have hrest := ih (fun j hj => h j (List.mem_cons_of_mem _ hj)) hopen
    rw [hdrawing] at hrest
    exact hrest

/-- Where nothing is open, a script that is submitted is taken and its statements are performed. -/
theorem submit_of_derives {s : Script} (hs : s.isIncomplete = false) {text : String}
    {body : List Instruction} {m : Nat} (h : DerivesScript 0 (gist text) body m) :
    (s.submit text).error = none ∧ (s.submit text).isIncomplete = false ∧
      (s.submit text).drawing = performAll body s.drawing := by
  obtain ⟨hcurrent, hblocks⟩ := isIncomplete_eq_false_iff.mp hs
  have hwaits : s.WaitsRightly := fun i hi => by simp [hcurrent] at hi
  have hmoved := h.renumbered s.nextId
  rw [Nat.zero_add] at hmoved
  obtain ⟨hcomplete, hread⟩ := advanceAll?_script hmoved s.core [] hcurrent rfl
  rw [List.append_nil, advanceAll?_gist hwaits, advanceAll?_nil, Option.map_eq_some_iff] at hread
  obtain ⟨r, hr, hcore⟩ := hread
  have houtside : (s.core.upTo (m + s.nextId)).openBlocks = [] := hblocks
  obtain ⟨-, hopen, hwaiting, -⟩ := settleAll_outside hcomplete houtside
  have hdrawing := drawing_settleAll hcomplete houtside
  rw [← hcore] at hopen hwaiting hdrawing
  have herror : r.error = none := by
    rw [← titled_of_takeAll? hr]
    rfl
  have hcurrentNone : r.current = none := hwaiting.trans hcurrent
  have hblocksNil : r.openBlocks = [] := hopen
  have hdrawn : r.drawing = performAll body s.drawing := by
    rw [performAll_map_renumbered] at hdrawing
    exact hdrawing
  rw [submit_of_some hr]
  exact ⟨herror, isIncomplete_eq_false_iff.mpr ⟨hcurrentNone, hblocksNil⟩, hdrawn⟩

/-- A script that is submitted several times is performed several times. -/
theorem submit_iterate {text : String} {body : List Instruction} {m : Nat}
    (h : DerivesScript 0 (gist text) body m) (n : Nat) {s : Script} (hs : s.isIncomplete = false) :
    (iterate (·.submit text) n s).drawing = iterate (performAll body) n s.drawing ∧
      (0 < n → (iterate (·.submit text) n s).error = none) := by
  induction n generalizing s with
  | zero => exact ⟨rfl, fun hn => absurd hn (Nat.lt_irrefl 0)⟩
  | succ n ih =>
    obtain ⟨herror, hsettled, hdrawing⟩ := submit_of_derives hs h
    obtain ⟨hdrawn, haccepted⟩ := ih hsettled
    refine ⟨?_, fun _ => ?_⟩
    · rw [iterate, hdrawn, hdrawing]
      rfl
    · cases n with
      | zero => exact herror
      | succ n => exact haccepted (Nat.succ_pos n)

end Script

/-! ## Counts -/

/-- The part before the point, with its sign, as far as sixty-four bits hold it. -/
def Binary.toWord : Binary → Int
  | .finite negative mantissa exponent =>
    if negative then -(min (wholePart mantissa exponent) signBit : Nat)
    else (min (wholePart mantissa exponent) maxCount : Nat)
  | .infinite negative => if negative then -(signBit : Nat) else (maxCount : Nat)
  | .nan => 0

/-- Something is done as often as the number says, and never if it is below zero. -/
theorem Binary.count_eq (b : Binary) : (b.count : Int) = max 0 b.toWord := by
  cases b with
  | finite negative mantissa exponent =>
    cases negative with
    | true =>
      simp only [count, toWord, if_true]
      omega
    | false =>
      simp only [count, toWord, Bool.false_eq_true, if_false]
      omega
  | infinite negative =>
    cases negative with
    | true =>
      simp only [count, toWord, if_true]
      omega
    | false =>
      simp only [count, toWord, Bool.false_eq_true, if_false]
      omega
  | nan => rfl

/-- The number that a loop is given as its count. -/
theorem admits_of_feed {t : Token} {call : Instruction} {id : Nat}
    (h : (Instruction.new id .loop).feed t = .ok (.bound call)) :
    t.IsText ∧ Param.times.Admits t.text (numberArg .times call.args) := by
  obtain ⟨param, x, hnext, hkind, ht, hx, rfl⟩ := Script.bound_of_feed h
  obtain rfl : Param.times = param := by
    simpa [Instruction.nextParam?, Instruction.new, Command.params] using hnext
  exact ⟨ht, (Script.numberFor_eq_ok_iff hkind).mp hx⟩

/-! ## Loops -/

/-- The text of a loop. -/
def loopText (count body : String) : String := "repeat " ++ count ++ " [ " ++ body ++ " ]"

theorem gist_loopText (count body : String) :
    gist (loopText count body) = ⟨.word, "repeat", 0⟩ :: (gist count ++
      ⟨.bracketOpen, "[", 0⟩ :: (gist body ++ [⟨.bracketClose, "]", 0⟩])) := by
  have hblank : isWordChar ' ' = false := by decide
  have hname : gist "repeat " = [⟨.word, "repeat", 0⟩] := by decide +kernel
  have hleft : gist " [ " = [⟨.bracketOpen, "[", 0⟩] := by decide +kernel
  have hright : gist " ]" = [⟨.bracketClose, "]", 0⟩] := by decide +kernel
  have hlast : ("repeat " ++ count ++ " [ ").toList.getLast? = some ' ' := by
    rw [String.toList_append, List.getLast?_append]
    rfl
  unfold loopText
  rw [gist_append (parted_of_head (c := ' ') rfl hblank), gist_append (parted_of_last hlast hblank),
    gist_append (parted_of_head (c := ' ') rfl hblank),
    gist_append (parted_of_last (c := ' ') rfl hblank), hname, hleft, hright]
  simp

/-- A script in a loop is a script, with the one statement that performs it as often as the count
says. -/
theorem derivesScript_loop {t : Token} {body : String} {x : Float} {statements : List Instruction}
    {m : Nat} (ht : (lex t.text t.line).tokens = [t]) (htext : t.IsText)
    (hx : Param.times.Admits t.text x)
    (h : DerivesScript 0 (gist body) statements m) :
    DerivesScript 0 (gist (loopText t.text body))
      [⟨0, .loop, [.number .times x, .block .statements (statements.map (·.renumbered (· + 1)))],
        true⟩] (m + 1) := by
  have hblock : DerivesArgs [.statements] 1
      (⟨.bracketOpen, "[", 0⟩ :: (gist body ++ [⟨.bracketClose, "]", 0⟩]))
      [.block .statements (statements.map (·.renumbered (· + 1)))] (m + 1) :=
    .block rfl rfl (h.renumbered 1) rfl (.nil _)
  have hcount : t.unplaced.IsText := htext
  have hname : Command.lookup? "repeat" = some .loop := by decide +kernel
  have hargs := DerivesArgs.number hcount hx hblock
  have hcall : DerivesStatement 0 _ _ (m + 1) :=
    .call (t := ⟨.word, "repeat", 0⟩) (Or.inl rfl) hname hargs
  have hloop := DerivesScript.cons hcall (.nil _)
  rw [List.append_nil] at hloop
  rw [gist_loopText, gist_of_lex ht htext]
  exact hloop

/-- A loop over any script, with any count that a loop can be given, is taken wherever no statement
is waiting. It leaves the turtle and the log as they are left when the script is submitted with a
newline as many times in a row as the count says, or not at all if the count is below zero. -/
theorem loops_are_unrolled (s : Script) (hs : s.isIncomplete = false) (body : String)
    (haccepted : (Script.empty.submit body).error = none)
    (hwhole : (Script.empty.submit body).isIncomplete = false) (t : Token)
    (ht : (lex t.text t.line).tokens = [t]) (call : Instruction)
    (hcall : (Instruction.new 0 .loop).feed t = .ok (.bound call)) (n : Nat)
    (hn : n = max 0 (Binary.ofFloat (numberArg .times call.args)).toWord) :
    let looped := s.submit ("repeat " ++ t.text ++ " [ " ++ body ++ " ]")
    let unrolled := iterate (·.submit (body ++ "\n")) n s
    looped.error = none ∧ looped.isIncomplete = false ∧ (0 < n → unrolled.error = none) ∧
      looped.drawing.turtle = unrolled.drawing.turtle ∧
      looped.drawing.log = unrolled.drawing.log := by
  intro looped unrolled
  obtain ⟨htext, hx⟩ := admits_of_feed hcall
  obtain ⟨statements, m, hderives⟩ := exists_derivesScript haccepted hwhole
  have hline : gist (body ++ "\n") = gist body := by
    have hblank : isWordChar '\n' = false := by decide
    have hnone : gist "\n" = [] := by decide +kernel
    rw [gist_append (parted_of_head (c := '\n') rfl hblank), hnone, List.append_nil]
  obtain ⟨herror, hsettled, hlooped⟩ :=
    Script.submit_of_derives hs (derivesScript_loop ht htext hx hderives)
  obtain ⟨hunrolled, hall⟩ := Script.submit_iterate (hline ▸ hderives) n hs
  have hcount : countOf (numberArg .times call.args) = n := by
    have hword := Binary.count_eq (Binary.ofFloat (numberArg .times call.args))
    rw [← hn] at hword
    exact Int.ofNat.inj hword
  -- in the loop the ids are one higher, since the loop itself comes first
  have hsame : looped.drawing = unrolled.drawing := by
    have hbody : performAll (statements.map (·.renumbered (· + 1))) = performAll statements :=
      funext (performAll_map_renumbered _ statements)
    calc looped.drawing
        = iterate (performAll (statements.map (·.renumbered (· + 1))))
            (countOf (numberArg .times call.args)) s.drawing := hlooped
      _ = iterate (performAll statements) n s.drawing := by rw [hbody, hcount]
      _ = unrolled.drawing := hunrolled.symm
  exact ⟨herror, hsettled, hall, by rw [hsame], by rw [hsame]⟩

/-- A drawing that has begun, with a line that was refused and one that was taken back. -/
def begunActions : List Action :=
  [.submit "fd 7 rt 30", .submit "bk 1 turn", .rename "draft", .submit "\npu", .undo]

theorem three_rounds_are_unrolled :
    let s := (Store.after begunActions).present
    let body := "bk 1.5 pu\n rp 2 [ rt 90 fd 7 ]pd"
    let looped := s.submit ("repeat " ++ "+3" ++ " [ " ++ body ++ " ]")
    let unrolled := iterate (·.submit (body ++ "\n")) 3 s
    s.isIncomplete = false ∧ (Script.empty.submit body).error = none ∧
    (Script.empty.submit body).isIncomplete = false ∧ looped.error = none ∧
    looped.drawing.turtle = unrolled.drawing.turtle ∧
    looped.drawing.log = unrolled.drawing.log ∧
    -- a line and two turns in each of the rounds, the last of which ends with the pen down
    s.drawing.log.size = 2 ∧ unrolled.drawing.log.size = 2 + 3 * 3 ∧
    s.drawing.turtle.angle = 30.0 ∧ unrolled.drawing.turtle.angle = 570.0 ∧
    unrolled.drawing.turtle.penDown = true := by
  intro s body looped unrolled
  have hs : s.isIncomplete = false := by decide +kernel
  have hbody : (Script.empty.submit body).error = none ∧
      (Script.empty.submit body).isIncomplete = false := by decide +kernel
  have hlex : (lex "+3" 1).tokens = [⟨.word, "+3", 1⟩] := by decide +kernel
  have hthree : Param.times.Admits "+3" 3.0 :=
    ⟨by decide, by decide +kernel, fun _ => ⟨by decide +kernel, by decide +kernel⟩⟩
  have hcall := Script.feed_number (i := Instruction.new 0 .loop) (t := ⟨.word, "+3", 1⟩) rfl
    (Or.inl rfl) hthree
  have hcount : (3 : Nat) = max 0 (Binary.ofFloat (numberArg .times
      ((Instruction.new 0 .loop).bind (.number .times 3.0)).args)).toWord := by decide +kernel
  have hbegun : s.drawing.log.size = 2 ∧ s.drawing.turtle.angle = 30.0 := by decide +kernel
  have hdrawn : looped.drawing.log.size = 2 + 3 * 3 ∧ looped.drawing.turtle.angle = 570.0 ∧
      looped.drawing.turtle.penDown = true := by decide +kernel
  obtain ⟨herror, -, -, hturtle, hlog⟩ := loops_are_unrolled s hs body hbody.1 hbody.2
    ⟨.word, "+3", 1⟩ hlex _ hcall 3 hcount
  change looped.drawing.turtle = unrolled.drawing.turtle at hturtle
  change looped.drawing.log = unrolled.drawing.log at hlog
  refine ⟨hs, hbody.1, hbody.2, herror, hturtle, hlog, hbegun.1, ?_, hbegun.2, ?_⟩
  · rw [← hlog]
    exact hdrawn.1
  · rw [← hturtle]
    exact hdrawn.2

end TurtleScript
