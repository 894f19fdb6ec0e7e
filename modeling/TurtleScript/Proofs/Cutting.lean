-- Submitting a text in two parts. White space does nothing to a script but to
-- be recorded, and the parser does not look at what is recorded; so where a
-- text was cut, but for its words, makes no difference to the script.
import TurtleScript.Proofs.Joining
import TurtleScript.Proofs.Parsing
import TurtleScript.Proofs.Rebuilding

namespace TurtleScript

namespace Script

/-! ## Taking tokens across a cut -/

/-- The script after a token, or why the token is refused. -/
def taken (s : Script) (t : Token) : Except Fault Script :=
  (s.step t).map fun (next, owner) => { next with tokens := next.tokens.push ⟨t, owner⟩ }

def takenAll (s : Script) (tokens : List Token) : Except Fault Script := tokens.foldlM taken s

@[simp] theorem takenAll_nil (s : Script) : s.takenAll [] = .ok s := rfl

@[simp] theorem takenAll_cons (s : Script) (t : Token) (tokens : List Token) :
    s.takenAll (t :: tokens) = (s.taken t).bind (takenAll · tokens) := rfl

theorem takenAll_append (s : Script) (xs ys : List Token) :
    s.takenAll (xs ++ ys) = (s.takenAll xs).bind (takenAll · ys) := by
  simp [takenAll, List.foldlM_append, bind]

theorem taken_eq_ok_iff {s r : Script} {t : Token} : s.taken t = .ok r ↔ s.take? t = some r := by
  unfold taken take?
  cases s.step t <;> simp [Except.map]

theorem takenAll_eq_ok_iff {s r : Script} {tokens : List Token} :
    s.takenAll tokens = .ok r ↔ s.takeAll? tokens = some r := by
  induction tokens generalizing s with
  | nil => simp
  | cons t tokens ih =>
    rw [takenAll_cons, takeAll?_cons]
    cases ht : s.taken t with
    | ok next =>
      rw [taken_eq_ok_iff.mp ht]
      exact ih
    | error fault =>
      have hnone : s.take? t = none := by
        rw [Option.eq_none_iff_forall_ne_some]
        intro next hnext
        rw [← taken_eq_ok_iff, ht] at hnext
        cases hnext
      simp [hnone, Except.bind]

/-- A submission takes all its tokens or tells why the first that is refused is so. -/
theorem submit_eq (s : Script) (text : String) :
    s.submit text = match (s.titled none s.name).takenAll (lex text s.nextLine).tokens with
      | .ok r => r
      | .error fault => s.titled (some fault.message) s.name := by
  have hall : ∀ (tokens : List Token) (now : Script), now.error = none →
      acceptAll s now tokens = match now.takenAll tokens with
        | .ok r => r
        | .error fault => s.titled (some fault.message) s.name := by
    intro tokens
    induction tokens with
    | nil => exact fun now _ => rfl
    | cons t tokens ih =>
      intro now hnow
      rw [takenAll_cons, acceptAll]
      unfold taken accept
      cases hstep : now.step t with
      | error fault => rfl
      | ok p =>
        obtain ⟨next, owner⟩ := p
        have hnone : next.error = none := by
          rw [dress_of_step hstep]
          exact hnow
        have hgoes :
            ¬ ({ next with tokens := next.tokens.push ⟨t, owner⟩ } : Script).error.isSome := by
          simp [hnone]
        refine (if_neg hgoes).trans ?_
        exact ih _ hnone
  exact hall _ _ rfl

/-! ## White space at a cut -/

/-- The script with more tokens before its own. -/
def behind (s : Script) (front : Array TaggedToken) : Script :=
  { s with tokens := front ++ s.tokens }

theorem taken_behind (s : Script) (front : Array TaggedToken) (t : Token) :
    (s.behind front).taken t = (s.taken t).map (·.behind front) := by
  have hdress : s.behind front = s.dress (front ++ s.tokens) s.error s.name := rfl
  unfold taken
  rw [hdress, step_dress]
  cases hstep : s.step t with
  | error fault => rfl
  | ok p =>
    obtain ⟨next, owner⟩ := p
    have hnext := dress_of_step hstep
    rw [hnext]
    simp [Except.map, dress, behind]

/-- What tokens do does not depend on those taken before. -/
theorem takenAll_behind (s : Script) (front : Array TaggedToken) (tokens : List Token) :
    (s.behind front).takenAll tokens = (s.takenAll tokens).map (·.behind front) := by
  induction tokens generalizing s with
  | nil => rfl
  | cons t tokens ih =>
    rw [takenAll_cons, takenAll_cons, taken_behind]
    cases s.taken t with
    | error fault => rfl
    | ok next => exact ih next

/-- White space is always taken and only recorded. -/
theorem taken_blank {s : Script} {t : Token} (h : s.WaitsRightly) (ht : t.isBlank = true) :
    s.taken t = .ok { s with tokens := s.tokens.push ⟨t, s.owner?⟩ } := by
  have hk : t.kind = .whitespace := by simpa [Token.isBlank] using ht
  have hsame := advance?_blank h ht
  unfold advance? at hsame
  unfold taken
  cases hstep : s.step t with
  | error fault => simp [hstep, Except.toOption] at hsame
  | ok p =>
    obtain ⟨next, owner⟩ := p
    have hnext : next = s := by simpa [hstep, Except.toOption] using hsame
    have howner : owner = s.owner? := by
      cases stepped_of_step hstep with
      | idle => rfl
      | started command hc hkind => simp [hk] at hkind
      | closed block blocks hc ho hkind => simp [hk] at hkind
      | ignored => rfl
      | bound i j hc hf =>
        obtain ⟨-, -, -, -, hkind, -⟩ := bound_of_feed hf
        simp [hk] at hkind
      | opened i param hc hf =>
        have hkind := (opens_of_feed hf).2.2
        simp [hk] at hkind
    rw [hnext, howner]
    rfl

theorem WaitsRightly.takenAll {s r : Script} {tokens : List Token} (h : s.WaitsRightly)
    (hr : s.takenAll tokens = .ok r) : r.WaitsRightly := h.takeAll? (takenAll_eq_ok_iff.mp hr)

theorem WaitsRightly.apply {s : Script} (h : s.WaitsRightly) (action : Action) :
    (s.apply action).WaitsRightly := by
  cases action with
  | submit text =>
    have hsubmit : (s.submit text).WaitsRightly := by
      cases hr : s.submitted? text with
      | some r =>
        rw [submit_of_some hr]
        exact h.submitted? hr
      | none =>
        obtain ⟨e, he⟩ := submit_of_none hr
        rw [he]
        exact h
    exact hsubmit
  | reset => exact waitsRightly_empty
  | _ => exact h

/-- The script without the tokens taken so far. -/
def unrecorded (s : Script) : Script := { s with tokens := #[] }

theorem takenAll_recorded (s : Script) (front : Array TaggedToken) (tokens : List Token) :
    ({ s with tokens := front } : Script).takenAll tokens =
      (s.unrecorded.takenAll tokens).map (·.behind front) := by
  have hrecorded : ({ s with tokens := front } : Script) = s.unrecorded.behind front := by
    simp [behind, unrecorded]
  rw [hrecorded]
  exact takenAll_behind _ _ tokens

/-- If the first part of a text is refused then the text is, for the same reason. -/
theorem takenAll_join_error {s : Script} (h : s.WaitsRightly) {xs ys : List Token} {fault : Fault}
    (hfirst : s.takenAll xs = .error fault) : s.takenAll (joinTokens xs ys) = .error fault := by
  rcases joinTokens_cases xs ys with hjoin | ⟨front, u, v, rest, rfl, rfl, hu, hv, hjoin⟩
  · rw [hjoin, takenAll_append, hfirst]
    rfl
  · rw [hjoin, takenAll_append]
    rw [takenAll_append] at hfirst
    cases hfront : s.takenAll front with
    | error fault' =>
      rw [hfront] at hfirst
      exact hfirst
    | ok r =>
      have hlast : r.takenAll [u] = .error fault := by
        rw [hfront] at hfirst
        exact hfirst
      rw [takenAll_cons, taken_blank (h.takenAll hfront) hu] at hlast
      cases hlast

/-- What becomes of a text whose first part is taken is what becomes of the second part after it,
but for white space at the cut. -/
theorem takenAll_join_ok {s r : Script} (h : s.WaitsRightly) {xs ys : List Token}
    (hfirst : s.takenAll xs = .ok r) :
    s.takenAll (joinTokens xs ys) = r.takenAll ys ∨
      ∃ (front : List Token) (u v : Token) (rest : List Token) (before : Array TaggedToken)
        (owner : Option Nat) (outcome : Except Fault Script),
        xs = front ++ [u] ∧ ys = v :: rest ∧ u.isBlank = true ∧ v.isBlank = true ∧
        r.tokens = before.push ⟨u, owner⟩ ∧
        s.takenAll (joinTokens xs ys) =
          outcome.map (·.behind (before.push ⟨{ u with text := u.text ++ v.text }, owner⟩)) ∧
        r.takenAll ys = outcome.map (·.behind ((before.push ⟨u, owner⟩).push ⟨v, owner⟩)) := by
  rcases joinTokens_cases xs ys with hjoin | ⟨front, u, v, rest, rfl, rfl, hu, hv, hjoin⟩
  · left
    rw [hjoin, takenAll_append, hfirst]
    rfl
  · right
    rw [takenAll_append] at hfirst
    cases hfront : s.takenAll front with
    | error fault =>
      rw [hfront] at hfirst
      cases hfirst
    | ok q =>
      have hq := h.takenAll hfront
      have hr : r = { q with tokens := q.tokens.push ⟨u, q.owner?⟩ } := by
        have hlast : q.takenAll [u] = .ok r := by
          rw [hfront] at hfirst
          exact hfirst
        rw [takenAll_cons, taken_blank hq hu] at hlast
        exact (Except.ok.inj hlast).symm
      have hrwaits : r.WaitsRightly := hr ▸ hq
      refine ⟨front, u, v, rest, q.tokens, q.owner?, q.unrecorded.takenAll rest, rfl, rfl, hu, hv,
        by rw [hr], ?_, ?_⟩
      · rw [hjoin, takenAll_append, hfront]
        refine (takenAll_cons q _ rest).trans ?_
        have hjoined : ({ u with text := u.text ++ v.text } : Token).isBlank = true := hu
        rw [taken_blank hq hjoined]
        exact takenAll_recorded q _ rest
      · rw [takenAll_cons, taken_blank hrwaits hv, hr]
        exact takenAll_recorded q _ rest

end Script

/-! ## Submissions in two parts -/

/-- Where the second part of a text goes on. -/
theorem Script.nextLine_of_takenAll {s r : Script} {tokens : List Token}
    (h : (s.titled none s.name).takenAll tokens = .ok r) :
    r.nextLine = lineAfter s.nextLine tokens := by
  have htokens := plainTokens_of_takeAll? (takenAll_eq_ok_iff.mp h)
  rw [nextLine_eq, nextLine_eq, htokens, plainTokens_titled, lineAfter_append]

/-- Where a text was cut makes no difference to a script, as long as the cut goes through no word.
The whole text is refused exactly if one of its parts is, with the error of the first part that is
refused. If it is taken then the script is the same in everything but its tokens, and these are the
same too, except that a run of white space which the cut goes through is two tokens. -/
theorem cuts_outside_words_make_no_difference (actions : List Action) (s : Script)
    (hs : s ∈ (Store.after actions).script.entries) (a b : String)
    (hcut : parted a.toList b.toList = true) :
    let whole := s.submit (a ++ b)
    let first := s.submit a
    let second := first.submit b
    (whole.error = none ↔ first.error = none ∧ second.error = none) ∧
    whole.error = first.error.or second.error ∧
    (whole.error = none → second = { whole with tokens := second.tokens } ∧
      (second.tokens = whole.tokens ∨
        a.toList.getLast?.any isBlank = true ∧ b.toList.head?.any isBlank = true ∧
        ∃ (front : List TaggedToken) (u v : TaggedToken) (rest : List TaggedToken),
          u.isBlank = true ∧ v.isBlank = true ∧ v.line = u.endLine ∧ v.owner = u.owner ∧
          first.tokens.toList = front ++ [u] ∧
          second.tokens.toList = front ++ u :: v :: rest ∧
          whole.tokens.toList = front ++ { u with text := u.text ++ v.text } :: rest)) := by
  intro whole first second
  have hwaits : (s.titled none s.name).WaitsRightly :=
    Store.forall_entries_after Script.waitsRightly_empty (fun _ action hw => hw.apply action)
      actions s hs
  have hlex : (lex (a ++ b) s.nextLine).tokens =
      joinTokens (lex a s.nextLine).tokens
        (lex b (lineAfter s.nextLine (lex a s.nextLine).tokens)).tokens := by
    unfold lex
    rw [String.toList_append]
    exact lexChars_append_parted s.nextLine _ _ hcut
  have hwhole : whole = _ := Script.submit_eq s (a ++ b)
  have hfirst : first = _ := Script.submit_eq s a
  have hsecond : second = _ := Script.submit_eq first b
  rw [hlex] at hwhole
  cases hxs : (s.titled none s.name).takenAll (lex a s.nextLine).tokens with
  | error fault =>
    rw [Script.takenAll_join_error hwaits hxs] at hwhole
    rw [hxs] at hfirst
    rw [hwhole, hfirst]
    simp [Script.titled]
  | ok r =>
    have herror : r.error = none := by
      rw [← Script.titled_of_takeAll? (Script.takenAll_eq_ok_iff.mp hxs)]
      rfl
    have hself : r.titled none r.name = r := by
      rw [← herror]
      rfl
    simp only [hxs] at hfirst
    rw [hfirst, hself, Script.nextLine_of_takenAll hxs] at hsecond
    have hnone :
        ∀ {q : Script} {tokens : List Token}, r.takenAll tokens = .ok q → q.error = none := by
      intro q tokens hq
      rw [← Script.titled_of_takeAll? (Script.takenAll_eq_ok_iff.mp hq)]
      exact herror
    rcases Script.takenAll_join_ok hwaits hxs with
      hsame | ⟨front, u, v, rest, before, owner, outcome, hu, hv, hublank, hvblank, htokens, hone,
        htwo⟩
    · rw [hsame] at hwhole
      cases hys : r.takenAll (lex b (lineAfter s.nextLine (lex a s.nextLine).tokens)).tokens with
      | error fault =>
        rw [hys] at hwhole hsecond
        rw [hwhole, hsecond, hfirst, herror]
        simp [Script.titled]
      | ok q =>
        rw [hys] at hwhole hsecond
        rw [hwhole, hsecond, hfirst, herror]
        exact ⟨by simp, rfl, fun _ => ⟨rfl, Or.inl rfl⟩⟩
    · rw [hone] at hwhole
      cases outcome with
      | error fault =>
        rw [htwo] at hsecond
        rw [hwhole, hsecond, hfirst, herror]
        simp [Script.titled, Except.map]
      | ok q =>
        have hq : q.error = none := hnone (q := q.behind _) htwo
        rw [htwo] at hsecond
        have hlast := isBlank_of_lexChars_snoc hublank front hu
        obtain ⟨hhead, hline⟩ := isBlank_of_lexChars_cons hv hvblank
        rw [hu, lineAfter_append] at hline
        rw [hwhole, hsecond, hfirst, herror]
        refine ⟨by simp [Except.map, Script.behind, hq],
          by simp [Except.map, Script.behind, hq], ?_⟩
        intro _
        refine ⟨rfl, Or.inr ⟨hlast, hhead, before.toList, ⟨u, owner⟩, ⟨v, owner⟩, q.tokens.toList,
          hublank, hvblank, hline, rfl, ?_, ?_, ?_⟩⟩
        · simp [htokens]
        · simp [Except.map, Script.behind]
        · simp [Except.map, Script.behind]

/-- A script that waits for an argument of a block's statement, and was renamed and taken back
before. -/
def waitingActions : List Action :=
  [.submit "fd 7", .rename "draft", .submit "\nrp 2 [ pd", .undo, .submit "\nrp 2 [ rt"]

theorem cut_in_white_space_is_no_difference :
    let s := (Store.after waitingActions).present
    let whole := s.submit (" 90 \n" ++ "\t fd .5 ]")
    let second := (s.submit " 90 \n").submit "\t fd .5 ]"
    s ∈ (Store.after waitingActions).script.entries ∧
    parted " 90 \n".toList "\t fd .5 ]".toList = true ∧ whole.error = none ∧
    second = { whole with tokens := second.tokens } ∧
    whole.tokens.size = 19 ∧ second.tokens.size = 20 := by
  intro s whole second
  have hmem := (Store.after waitingActions).present_mem_entries
  have hcut : parted " 90 \n".toList "\t fd .5 ]".toList = true := by decide
  have haccepted : whole.error = none ∧ whole.tokens.size = 19 ∧ second.tokens.size = 20 := by
    decide +kernel
  obtain ⟨-, -, hsame⟩ := cuts_outside_words_make_no_difference waitingActions s hmem " 90 \n"
    "\t fd .5 ]" hcut
  exact ⟨hmem, hcut, haccepted.1, (hsame haccepted.1).1, haccepted.2⟩

end TurtleScript
