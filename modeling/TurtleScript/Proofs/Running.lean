-- Running a script line by line. It comes to the same as submitting the whole
-- text: the cuts are at newlines, so they only go through white space, and the
-- first token that is refused is the same one. The line that is told with it
-- is the line that the token stands on.
import TurtleScript.Proofs.Cutting
import TurtleScript.Proofs.Rejoining
import TurtleScript.Proofs.Unrolling
import TurtleScript.Program
import TurtleScript.Web.Router

namespace TurtleScript

/-! ## The first refused token -/

namespace Script

/-- The first of some tokens that is refused, and why. -/
def refusal? (s : Script) : List Token → Option (Token × Fault)
  | [] => none
  | t :: tokens =>
    match s.step t with
    | .ok (next, _) => next.refusal? tokens
    | .error fault => some (t, fault)

theorem refusal?_dress (s : Script) (record : Array TaggedToken) (error : Option String)
    (name : String) (tokens : List Token) :
    (s.dress record error name).refusal? tokens = s.refusal? tokens := by
  induction tokens generalizing s with
  | nil => rfl
  | cons t tokens ih =>
    rw [refusal?, refusal?, step_dress]
    cases s.step t with
    | error fault => rfl
    | ok p => exact ih p.1

theorem refusal?_core (s : Script) (tokens : List Token) : s.core.refusal? tokens = s.refusal? tokens :=
  refusal?_dress ..

theorem refusal?_of_take? {s r : Script} {t : Token} (h : s.take? t = some r) (tokens : List Token) :
    s.refusal? (t :: tokens) = r.refusal? tokens := by
  unfold take? at h
  rw [refusal?]
  cases hstep : s.step t with
  | error fault => simp [hstep] at h
  | ok p =>
    simp only [hstep, Option.some.injEq] at h
    rw [← h]
    exact (refusal?_dress p.1 _ p.1.error p.1.name tokens).symm

/-- A token is the first that is refused if all before it are taken and it is not. -/
theorem exists_of_refusal? {s : Script} {tokens : List Token} {t : Token} {fault : Fault}
    (h : s.refusal? tokens = some (t, fault)) :
    ∃ before after q, tokens = before ++ t :: after ∧ s.takeAll? before = some q ∧
      q.step t = .error fault := by
  induction tokens generalizing s with
  | nil => cases h
  | cons u tokens ih =>
    cases hstep : s.step u with
    | error why =>
      rw [refusal?, hstep, Option.some.injEq, Prod.mk.injEq] at h
      obtain ⟨rfl, rfl⟩ := h
      exact ⟨[], tokens, s, rfl, rfl, hstep⟩
    | ok p =>
      have htake : s.take? u = some { p.1 with tokens := p.1.tokens.push ⟨u, p.2⟩ } := by
        unfold take?
        rw [hstep]
      rw [refusal?_of_take? htake] at h
      obtain ⟨before, after, q, rfl, hq, hrefused⟩ := ih h
      exact ⟨u :: before, after, q, rfl, by rw [takeAll?_cons, htake]; exact hq, hrefused⟩

theorem refusal?_append (s : Script) (xs ys : List Token) :
    s.refusal? (xs ++ ys) = (s.refusal? xs).or ((s.advanceAll? xs).bind (·.refusal? ys)) := by
  induction xs generalizing s with
  | nil => rfl
  | cons t xs ih =>
    rw [List.cons_append, refusal?, refusal?, advanceAll?_cons]
    unfold advance?
    cases s.step t with
    | error fault => rfl
    | ok p => exact ih p.1

/-- Either a token is refused or all are taken. -/
theorem refusal?_eq_none_iff (s : Script) (tokens : List Token) :
    s.refusal? tokens = none ↔ (s.advanceAll? tokens).isSome = true := by
  induction tokens generalizing s with
  | nil => simp [refusal?]
  | cons t tokens ih =>
    rw [refusal?, advanceAll?_cons]
    unfold advance?
    cases s.step t with
    | error fault => simp [Except.toOption]
    | ok p => exact ih p.1

/-- White space is never refused. -/
theorem refusal?_solid {s : Script} (h : s.WaitsRightly) (tokens : List Token) :
    s.refusal? (solid tokens) = s.refusal? tokens := by
  induction tokens generalizing s with
  | nil => rfl
  | cons t tokens ih =>
    unfold solid
    by_cases ht : t.isBlank = true
    · have hblank := advance?_blank h ht
      unfold advance? at hblank
      rw [List.filter_cons_of_neg (by simp [ht]), refusal?]
      cases hstep : s.step t with
      | error fault => simp [hstep, Except.toOption] at hblank
      | ok p =>
        have hsame : p.1 = s := by simpa [hstep, Except.toOption] using hblank
        simp only [hsame]
        exact ih h
    · rw [List.filter_cons_of_pos (by simp [ht]), refusal?, refusal?]
      cases hstep : s.step t with
      | error fault => rfl
      | ok p =>
        have hnext : s.advance? t = some p.1 := by simp [advance?, hstep, Except.toOption]
        exact ih (h.advance? hnext)

section Cut

variable {s : Script} (h : s.WaitsRightly) (xs ys : List Token)

include h

theorem advanceAll?_joinTokens :
    s.advanceAll? (joinTokens xs ys) = (s.advanceAll? xs).bind (·.advanceAll? ys) := by
  rw [← advanceAll?_solid h, solid_joinTokens, advanceAll?, List.foldlM_append]
  have hxs : (solid xs).foldlM advance? s = s.advanceAll? xs := advanceAll?_solid h xs
  rw [hxs]
  cases hr : s.advanceAll? xs with
  | none => rfl
  | some r => exact advanceAll?_solid (h.advanceAll? hr) ys

/-- White space at a cut is not refused. -/
theorem refusal?_joinTokens :
    s.refusal? (joinTokens xs ys) = (s.refusal? xs).or ((s.advanceAll? xs).bind (·.refusal? ys)) := by
  rw [← refusal?_solid h, solid_joinTokens, refusal?_append, refusal?_solid h, advanceAll?_solid h]
  cases hr : s.advanceAll? xs with
  | none => rfl
  | some r => rw [Option.bind_some, Option.bind_some, refusal?_solid (h.advanceAll? hr)]

end Cut

theorem map_refusal? (s : Script) (tokens : List Token) :
    (s.refusal? tokens).map (·.2) = match s.takenAll tokens with
      | .ok _ => none
      | .error fault => some fault := by
  induction tokens generalizing s with
  | nil => rfl
  | cons t tokens ih =>
    rw [takenAll_cons, refusal?]
    unfold taken
    cases s.step t with
    | error fault => rfl
    | ok p =>
      simp only
      rw [← refusal?_dress p.1 (p.1.tokens.push ⟨t, p.2⟩) p.1.error p.1.name tokens]
      exact ih { p.1 with tokens := p.1.tokens.push ⟨t, p.2⟩ }

/-- A submission tells why the first token that is refused is so. -/
theorem error_submit (s : Script) (text : String) :
    (s.submit text).error = (s.refusal? (lex text s.nextLine).tokens).map (·.2.message) := by
  have htitled : (s.titled none s.name).refusal? (lex text s.nextLine).tokens =
      s.refusal? (lex text s.nextLine).tokens := refusal?_dress s s.tokens none s.name _
  have hmap : (s.refusal? (lex text s.nextLine).tokens).map (·.2.message) =
      ((s.refusal? (lex text s.nextLine).tokens).map (·.2)).map Fault.message := by
    rw [Option.map_map]
    rfl
  rw [hmap, ← htitled, map_refusal?, submit_eq]
  cases hr : (s.titled none s.name).takenAll (lex text s.nextLine).tokens with
  | error fault => rfl
  | ok r =>
    rw [← titled_of_takeAll? (takenAll_eq_ok_iff.mp hr)]
    rfl

end Script

/-! ## The lines of a text -/

theorem splitLines_line {body : List Char} (h : '\n' ∉ body) (rest : List Char) :
    splitLines (body ++ '\n' :: rest) = (body ++ ['\n']) :: splitLines rest := by
  induction body with
  | nil => simp [splitLines]
  | cons c body ih =>
    have hc : c ≠ '\n' := fun hc => h (by simp [hc])
    rw [List.cons_append, splitLines, if_neg hc, ih fun hmem => h (List.mem_cons_of_mem _ hmem)]
    rfl

theorem splitLines_last {cs : List Char} (h : '\n' ∉ cs) (hne : cs ≠ []) : splitLines cs = [cs] := by
  induction cs with
  | nil => exact absurd rfl hne
  | cons c cs ih =>
    have hc : c ≠ '\n' := fun hc => h (by simp [hc])
    rw [splitLines, if_neg hc]
    cases cs with
    | nil => rfl
    | cons d cs => rw [ih (fun hmem => h (List.mem_cons_of_mem _ hmem)) (List.cons_ne_nil _ _)]

/-- A text begins with its first line. The line has a newline at its end only, so the text is not
cut in a word. -/
theorem exists_line {cs : List Char} (h : cs ≠ []) :
    ∃ line rest, cs = line ++ rest ∧ line ≠ [] ∧ splitLines cs = line :: splitLines rest ∧
      '\n' ∉ line.dropLast ∧ parted line rest = true := by
  by_cases hnewline : '\n' ∈ cs
  · obtain ⟨body, rest, rfl, hbody⟩ := List.eq_append_cons_of_mem hnewline
    have hblank : isWordChar '\n' = false := by decide
    refine ⟨body ++ ['\n'], rest, by simp, by simp, splitLines_line hbody rest, ?_, ?_⟩
    · rw [List.dropLast_concat]
      exact hbody
    · simp [parted, hblank]
  · refine ⟨cs, [], by simp, h, splitLines_last hnewline h, ?_, by simp [parted]⟩
    exact fun hmem => hnewline (List.dropLast_subset cs hmem)

/-- All tokens of a line start on one line. -/
theorem line_of_mem_lex {line : Nat} {text : String} (h : '\n' ∉ text.toList.dropLast) {t : Token}
    (ht : t ∈ (lex text line).tokens) : t.line = line := by
  have hsplits := (splits_iff line text _).mpr rfl
  obtain ⟨before, after, hlex⟩ := List.append_of_mem ht
  have hwhole : text.toList =
      (textOf before).toList ++ (t.text.toList ++ (textOf after).toList) := by
    rw [← hsplits.whole, hlex, textOf_append, textOf_cons, String.toList_append, String.toList_append]
  have hne : t.text.toList ++ (textOf after).toList ≠ [] := by
    have htext : t.text.toList ≠ [] :=
      fun hnil => hsplits.nonempty t ht (String.toList_eq_nil_iff.mp hnil)
    simp [htext]
  have hnone : '\n' ∉ (textOf before).toList := by
    rw [hwhole, List.dropLast_append_of_ne_nil hne] at h
    exact fun hmem => h (List.mem_append_left _ hmem)
  rw [hsplits.lines before t after hlex, lineBreaks, List.count_eq_zero_of_not_mem hnone, Nat.add_zero]

/-- What holds of nothing, and of a text if it holds of all but its first line, holds of every
text. -/
@[elab_as_elim]
theorem line_induction {P : List Char → Prop} (cs : List Char) (nil : P [])
    (line : ∀ line rest, splitLines (line ++ rest) = line :: splitLines rest →
      '\n' ∉ line.dropLast → parted line rest = true → P rest → P (line ++ rest)) : P cs := by
  by_cases hcs : cs = []
  · rw [hcs]
    exact nil
  · obtain ⟨first, rest, rfl, hfirst, hsplit, hnewline, hcut⟩ := exists_line hcs
    have hshorter : rest.length < (first ++ rest).length := by
      rw [List.length_append]
      exact Nat.lt_add_of_pos_left (List.length_pos_of_ne_nil hfirst)
    exact line first rest hsplit hnewline hcut (line_induction rest nil line)
termination_by cs.length

/-! ## Line by line -/

namespace Script

theorem submitLines_cons_of_some {s r : Script} {text : String} (h : s.submitted? text = some r)
    (texts : List String) : s.submitLines (text :: texts) = r.submitLines texts := by
  have haccepted : (s.submit text).error = none := by
    rw [error_submit_eq_none_iff, h]
    rfl
  rw [submitLines]
  simp only [haccepted]
  rw [submit_of_some h]

/-- After a line that is taken, the rest of the text is read as it is after the line's tokens. -/
theorem read_after_line {s r : Script} (h : s.WaitsRightly) {line rest : List Char}
    (hcut : parted line rest = true) (hr : s.submitted? (String.ofList line) = some r) :
    s.refusal? (lexChars s.nextLine (line ++ rest)).tokens =
        r.refusal? (lexChars r.nextLine rest).tokens ∧
      s.core.advanceAll? (lexChars s.nextLine (line ++ rest)).tokens =
        r.core.advanceAll? (lexChars r.nextLine rest).tokens := by
  have hcore : s.core.WaitsRightly := h
  have hnext : r.nextLine = lineAfter s.nextLine (lex (String.ofList line) s.nextLine).tokens :=
    nextLine_of_takenAll (takenAll_eq_ok_iff.mpr hr)
  have hread := advanceAll?_lex s (String.ofList line)
  rw [hr, Option.map_some] at hread
  have htaken : s.core.refusal? (lex (String.ofList line) s.nextLine).tokens = none := by
    rw [refusal?_eq_none_iff, hread]
    rfl
  unfold lex at hnext hread htaken
  rw [String.toList_ofList] at hnext hread htaken
  rw [lexChars_append_parted _ _ _ hcut, ← hnext]
  constructor
  · rw [← refusal?_core s, refusal?_joinTokens hcore, htaken, Option.none_or, hread, Option.bind_some,
      refusal?_core]
  · rw [advanceAll?_joinTokens hcore, hread, Option.bind_some]

/-- In a text whose first line is refused, the first token that is refused is one of that line. -/
theorem exists_refusal?_of_line {s : Script} (h : s.WaitsRightly) {line rest : List Char}
    (hcut : parted line rest = true) (hr : s.submitted? (String.ofList line) = none) :
    ∃ p, s.refusal? (lex (String.ofList line) s.nextLine).tokens = some p ∧
      s.refusal? (lexChars s.nextLine (line ++ rest)).tokens = some p := by
  have hread := advanceAll?_lex s (String.ofList line)
  rw [hr, Option.map_none] at hread
  have hrefused : s.refusal? (lex (String.ofList line) s.nextLine).tokens ≠ none := by
    rw [← refusal?_core, Ne, refusal?_eq_none_iff, hread]
    simp
  obtain ⟨p, hp⟩ := Option.ne_none_iff_exists'.mp hrefused
  refine ⟨p, hp, ?_⟩
  unfold lex at hp
  rw [String.toList_ofList] at hp
  rw [lexChars_append_parted _ _ _ hcut, refusal?_joinTokens h, hp, Option.some_or]

/-- The first token that is refused in a text ends its run. -/
theorem submitLines_of_refusal? {s : Script} (h : s.WaitsRightly) {cs : List Char} {t : Token}
    {fault : Fault} (hcs : s.refusal? (lexChars s.nextLine cs).tokens = some (t, fault)) :
    s.submitLines ((splitLines cs).map String.ofList) = .error ⟨t.line, fault.message⟩ := by
  induction cs using line_induction generalizing s with
  | nil => simp [refusal?] at hcs
  | line line rest hsplit hnewline hcut ih =>
    rw [hsplit, List.map_cons]
    cases hr : s.submitted? (String.ofList line) with
    | some r =>
      rw [(read_after_line h hcut hr).1] at hcs
      rw [submitLines_cons_of_some hr]
      exact ih (h.submitted? hr) hcs
    | none =>
      obtain ⟨p, hp, hwhole⟩ := exists_refusal?_of_line h hcut hr
      obtain rfl : p = (t, fault) := Option.some.inj (hwhole.symm.trans hcs)
      obtain ⟨before, after, -, hlex, -⟩ := exists_of_refusal? hp
      have hmem : t ∈ (lex (String.ofList line) s.nextLine).tokens := by simp [hlex]
      have hplace : t.line = s.nextLine := line_of_mem_lex (by rwa [String.toList_ofList]) hmem
      have herror : (s.submit (String.ofList line)).error = some fault.message := by
        rw [error_submit, hp]
        rfl
      rw [submitLines, ← hplace]
      simp only [herror]

/-- A text that is taken is taken line by line. -/
theorem submitLines_of_advanceAll? {s q : Script} (h : s.WaitsRightly) {cs : List Char}
    (hcs : s.core.advanceAll? (lexChars s.nextLine cs).tokens = some q) :
    ∃ r, s.submitLines ((splitLines cs).map String.ofList) = .ok r ∧ r.core = q := by
  induction cs using line_induction generalizing s with
  | nil =>
    rw [lexChars_nil, advanceAll?_nil, Option.some.injEq] at hcs
    exact ⟨s, rfl, hcs⟩
  | line line rest hsplit hnewline hcut ih =>
    rw [hsplit, List.map_cons]
    cases hr : s.submitted? (String.ofList line) with
    | some r =>
      rw [(read_after_line h hcut hr).2] at hcs
      rw [submitLines_cons_of_some hr]
      exact ih (h.submitted? hr) hcs
    | none =>
      obtain ⟨p, -, hwhole⟩ := exists_refusal?_of_line h hcut hr
      have hall : s.core.refusal? (lexChars s.nextLine (line ++ rest)).tokens = none := by
        rw [refusal?_eq_none_iff, hcs]
        rfl
      rw [refusal?_core, hwhole] at hall
      cases hall

theorem titled_of_submitLines {s r : Script} {texts : List String} (hs : s.error = none)
    (h : s.submitLines texts = .ok r) : r.titled none s.name = r := by
  induction texts generalizing s with
  | nil =>
    obtain rfl : s = r := Except.ok.inj h
    rw [← hs]
    rfl
  | cons text texts ih =>
    cases hnext : s.submitted? text with
    | some next =>
      rw [submitLines_cons_of_some hnext] at h
      have htitle := titled_of_takeAll? hnext
      have hsame := ih (htitle ▸ rfl) h
      rwa [← htitle] at hsame
    | none =>
      obtain ⟨e, he⟩ := submit_of_none hnext
      rw [submitLines, he] at h
      cases h

end Script

/-- A text that is taken as a whole is taken line by line, with no other outcome but for the tokens
that lie across the ends of lines. -/
theorem runLines_of_taken {code : String} (h : (Script.empty.submit code).error = none) :
    ∃ s, runLines code = .ok s ∧ s = { Script.empty.submit code with tokens := s.tokens } := by
  rw [Script.error_submit_eq_none_iff, Option.isSome_iff_exists] at h
  obtain ⟨whole, hwhole⟩ := h
  have hread := Script.advanceAll?_lex .empty code
  rw [hwhole, Option.map_some] at hread
  obtain ⟨s, hs, hcore⟩ := Script.submitLines_of_advanceAll? Script.waitsRightly_empty hread
  have htitle : s.titled none Script.defaultName = s := Script.titled_of_submitLines rfl hs
  have hwholetitle : whole.titled none Script.defaultName = whole := Script.titled_of_takeAll? hwhole
  refine ⟨s, hs, ?_⟩
  rw [Script.submit_of_some hwhole, ← hwholetitle]
  calc s = s.core.dress s.tokens none Script.defaultName := htitle.symm
    _ = whole.core.dress s.tokens none Script.defaultName := by rw [hcore]

/-- A text that is refused as a whole is refused line by line, on the line of the first token that
is refused. -/
theorem runLines_of_refused {code d : String} (h : (Script.empty.submit code).error = some d) :
    ∃ before t after, (lex code 1).tokens = before ++ t :: after ∧
      (Script.empty.replay before).error = none ∧
      ((Script.empty.replay before).accept t).error = some d ∧
      runLines code = .error ⟨1 + lineBreaks (textOf before), d⟩ := by
  rw [Script.error_submit, Option.map_eq_some_iff] at h
  obtain ⟨⟨t, fault⟩, hrefused, rfl⟩ := h
  obtain ⟨before, after, q, hlex, hq, hstep⟩ := Script.exists_of_refusal? hrefused
  have hlines : runLines code = .error ⟨t.line, fault.message⟩ :=
    Script.submitLines_of_refusal? Script.waitsRightly_empty hrefused
  have hplace : t.line = 1 + lineBreaks (textOf before) :=
    ((splits_iff 1 code _).mpr rfl).lines before t after hlex
  have htaken : (Script.empty.replay before).error = none := by
    rw [Script.error_replay_eq_none_iff rfl, hq]
    rfl
  refine ⟨before, t, after, hlex, htaken, ?_, hplace ▸ hlines⟩
  rw [Script.replay_of_takeAll? hq]
  unfold Script.accept
  rw [hstep]

/-- A script runs line by line as its text is read at once. The run is refused exactly if the text
is, with the same description and the line of the first token that is refused, which is told by the
newlines before it. Otherwise both come to the same script, with other tokens at most, and the run
complains only if this script is unfinished. The page that runs scripts gives the message of the run
if it is refused, and else the drawing. -/
theorem lines_run_as_one_text (code : String) :
    ((Web.runAnswer code).status = 422 ↔ ∃ fault, run code = .error (.refused fault)) ∧
    (∀ line d, run code = .error (.refused ⟨line, d⟩) →
      (∃ before t after, (lex code 1).tokens = before ++ t :: after ∧
        code = textOf before ++ t.text ++ textOf after ∧
        (Script.empty.replay before).error = none ∧
        ((Script.empty.replay before).accept t).error = some d ∧
        line = 1 + lineBreaks (textOf before)) ∧
      (∀ asJson, runOutput code asJson = .error ("line " ++ Decimal.text line ++ ": " ++ d)) ∧
      Web.runAnswer code = .fault 422 ("line " ++ Decimal.text line ++ ": " ++ d)) ∧
    let whole := Script.empty.submit code
    (∀ d, whole.error = some d ↔ ∃ line, run code = .error (.refused ⟨line, d⟩)) ∧
    (whole.error = none ↔ (∃ s, run code = .ok s) ∨ run code = .error .unfinished) ∧
    (whole.error = none →
      ∃ s, runLines code = .ok s ∧ s = { whole with tokens := s.tokens } ∧
        run code = (if whole.isIncomplete then .error .unfinished else .ok s) ∧
        Web.runAnswer code = .json (Json.obj [("drawCommands", whole.drawing.logJson),
          ("turtle", whole.drawing.turtle.toJson),
          ("incomplete", .bool whole.isIncomplete)]).sorted) := by
  obtain hwhole | ⟨d, hwhole⟩ := Option.eq_none_or_eq_some (Script.empty.submit code).error
  · obtain ⟨s, hs, hsame⟩ := runLines_of_taken hwhole
    have hincomplete : s.isIncomplete = (Script.empty.submit code).isIncomplete := by rw [hsame]; rfl
    have hdrawing : s.drawing = (Script.empty.submit code).drawing := by rw [hsame]
    have hrun : run code = if s.isIncomplete then .error .unfinished else .ok s := by rw [run, hs]
    have hanswer : Web.runAnswer code = .json (Web.drawingJson s) := by rw [Web.runAnswer, hs]
    have hnever : ∀ fault, run code ≠ .error (.refused fault) := by
      intro fault
      rw [hrun]
      split <;> simp
    refine ⟨?_, fun line d h => absurd h (hnever _), ?_, ?_, fun _ => ⟨s, hs, hsame, ?_, ?_⟩⟩
    · simp [hanswer, hnever, Web.Response.json, Web.Response.ofType]
    · simp [hwhole, hnever]
    · rw [hrun]
      split <;> simp [hwhole]
    · rw [hrun, hincomplete]
    · rw [hanswer, Web.drawingJson, hincomplete, hdrawing]
  · obtain ⟨before, t, after, hlex, hbefore, ht, hlines⟩ := runLines_of_refused hwhole
    have hrun : run code = .error (.refused ⟨1 + lineBreaks (textOf before), d⟩) := by
      rw [run, hlines]
    have hanswer : Web.runAnswer code =
        .fault 422 (LineFault.message ⟨1 + lineBreaks (textOf before), d⟩) := by
      rw [Web.runAnswer, hlines]
    refine ⟨?_, ?_, ?_, ?_, ?_⟩
    · simp [hanswer, hrun, Web.Response.fault, Web.Response.ofType]
    · intro line d' h
      obtain ⟨rfl, rfl⟩ : 1 + lineBreaks (textOf before) = line ∧ d = d' := by simpa [hrun] using h
      refine ⟨⟨before, t, after, hlex, ?_, hbefore, ht, rfl⟩, fun asJson => ?_, hanswer⟩
      · rw [String.append_assoc, ← textOf_cons, ← textOf_append, ← hlex, textOf_lex]
      · rw [runOutput, hrun]
        rfl
    · simp [hwhole, hrun]
    · simp [hwhole, hrun]
    · simp [hwhole]

/-- Lines of a block that is not closed yet. The first ends in a return, and one is blank. -/
def openingLines : String := "rp 2 [\r\n\n  fd 7\n"

theorem slip_is_told_with_its_line :
    run openingLines = .error .unfinished ∧
    (∃ line, run (openingLines ++ " ] lt\n90 hop") =
      .error (.refused ⟨line, "hop is not a recognized command"⟩)) ∧
    Web.runAnswer (openingLines ++ " ] lt\n90 hop") =
      .fault 422 "line 5: hop is not a recognized command" := by
  have htaken : (Script.empty.submit openingLines).error = none ∧
      (Script.empty.submit openingLines).isIncomplete = true := by decide +kernel
  have hrefused : (Script.empty.submit (openingLines ++ " ] lt\n90 hop")).error =
      some "hop is not a recognized command" := by decide +kernel
  have hprinted : runOutput (openingLines ++ " ] lt\n90 hop") false =
      .error "line 5: hop is not a recognized command" := by decide +kernel
  obtain ⟨-, -, -, -, htakes⟩ := lines_run_as_one_text openingLines
  obtain ⟨s, -, -, hrun, -⟩ := htakes htaken.1
  rw [if_pos htaken.2] at hrun
  obtain ⟨-, hslip, hfails, -⟩ := lines_run_as_one_text (openingLines ++ " ] lt\n90 hop")
  obtain ⟨line, hline⟩ := (hfails _).mp hrefused
  obtain ⟨-, hmessage, hanswer⟩ := hslip line _ hline
  have htext := Except.error.inj ((hmessage false).symm.trans hprinted)
  exact ⟨hrun, ⟨line, hline⟩, htext ▸ hanswer⟩

end TurtleScript
