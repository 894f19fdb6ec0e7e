-- A script is all in its tokens. Taking them again, in the texts that
-- `submissions` joins them to, is never refused and gives the same script,
-- wherever the lines of its user began and ended.
import Mathlib.Data.List.Induction
import TurtleScript.Proofs.Performing
import TurtleScript.Proofs.Taking
import TurtleScript.Proofs.Tokenizing

namespace TurtleScript

/-! ## Lines -/

theorem lineAfter_append (line : Nat) (xs ys : List Token) :
    lineAfter line (xs ++ ys) = lineAfter (lineAfter line xs) ys := by
  simp [lineAfter, List.foldl_append]

theorem lineAfter_eq_getLast? (line : Nat) (tokens : List Token) :
    lineAfter line tokens = (tokens.getLast?.map (·.endLine)).getD line := by
  induction tokens using List.reverseRecOn with
  | nil => rfl
  | append_singleton tokens t => simp [lineAfter, List.foldl_append]

theorem Script.nextLine_eq (s : Script) : s.nextLine = lineAfter 1 s.plainTokens := by
  rw [lineAfter_eq_getLast?, plainTokens, List.getLast?_map, Array.getLast?_toList, Option.map_map]
  rfl

/-! ## Scripts that are all in their tokens -/

/-- A script that can be told from its tokens: each reads as itself, and to take them in order
from the beginning gives the script. -/
structure Script.Faithful (s : Script) : Prop where
  inRow : InRow 1 s.plainTokens
  rebuilt : Script.empty.takeAll? s.plainTokens = some s.bare

theorem Script.faithful_empty : empty.Faithful := ⟨trivial, rfl⟩

theorem Script.Faithful.titled {s : Script} (h : s.Faithful) (e : Option String) (n : String) :
    (s.titled e n).Faithful := ⟨h.inRow, h.rebuilt⟩

/-- Tokens of a text that go on where the script ends keep it faithful. -/
theorem Script.Faithful.takeAll? {s r : Script} {tokens : List Token} (h : s.Faithful)
    (hrow : InRow s.nextLine tokens) (htake : s.takeAll? tokens = some r) : r.Faithful := by
  have htokens := plainTokens_of_takeAll? htake
  refine ⟨?_, ?_⟩
  · rw [htokens, inRow_append, ← nextLine_eq]
    exact ⟨h.inRow, hrow⟩
  · have hbare : s.bare.takeAll? tokens = some r.bare := by
      rw [bare, takeAll?_titled, htake]
      rfl
    rw [htokens, takeAll?_append, h.rebuilt]
    exact hbare

theorem Script.Faithful.submit {s : Script} (h : s.Faithful) (text : String) :
    (s.submit text).Faithful := by
  cases hr : s.submitted? text with
  | none =>
    obtain ⟨e, he⟩ := submit_of_none hr
    rw [he]
    exact h.titled _ _
  | some r =>
    rw [submit_of_some hr]
    exact (h.titled none s.name).takeAll? (inRow_lexChars _ _) hr

theorem Script.Faithful.apply {s : Script} (h : s.Faithful) (action : Action) :
    (s.apply action).Faithful := by
  cases action with
  | submit text => exact h.submit text
  | rename name => exact h.titled s.error name
  | reset => exact faithful_empty
  | _ => exact h

/-- Every script that a store can hold is all in its tokens. -/
theorem Store.faithful_of_mem_entries {actions : List Action} {s : Script}
    (h : s ∈ (after actions).script.entries) : s.Faithful :=
  forall_entries_after Script.faithful_empty (fun _ action hs => hs.apply action) actions s h

/-! ## One submission out of some tokens -/

/-- A text that starts with a certain token starts with a character of its kind. -/
theorem endsBefore_of_lex {k : TokenKind} {text : String} {line : Nat} {u : Token} {us : List Token}
    (h : (lex text line).tokens = u :: us) (hk : k.merges u.kind = false) :
    EndsBefore k text.toList := by
  unfold lex at h
  cases htext : text.toList with
  | nil => exact endsBefore_nil k
  | cons c cs =>
    rw [htext, tokens_lexChars_cons] at h
    simp only [List.cons.injEq] at h
    intro d hd
    simp only [List.head?_cons, Option.mem_some_iff] at hd
    rw [← hd, ← hk, ← h.1]

/-- The first submission reads as the first tokens, and the other submissions are those of the
tokens that are left. -/
theorem submissions_split (line : Nat) (t : TaggedToken) (tokens : List TaggedToken)
    (hrow : InRow line ((t :: tokens).map (·.toToken))) :
    ∃ text group rest, tokens = group ++ rest ∧
      submissions (t :: tokens) = text :: submissions rest ∧
      (lex text line).tokens = (t :: group).map (·.toToken) := by
  induction tokens generalizing line t with
  | nil => exact ⟨t.text, [], [], rfl, rfl, hrow.2.1⟩
  | cons u tokens ih =>
    obtain ⟨hline, hlex, hrest⟩ := hrow
    obtain ⟨text, group, rest, htokens, hsub, htext⟩ := ih t.endLine u hrest
    rw [submissions, hsub]
    by_cases hshare : shareSubmission t.toToken u.toToken = true
    · have hmerge : t.kind.merges u.kind = false := by
        simp only [shareSubmission, Bool.and_eq_true, Bool.not_eq_true'] at hshare
        exact hshare.2
      refine ⟨t.text ++ text, u :: group, rest, by rw [htokens]; rfl, by simp [hshare], ?_⟩
      rw [lex_append hlex (endsBefore_of_lex htext hmerge), htext]
      rfl
    · refine ⟨t.text, [], u :: tokens, rfl, ?_, hlex⟩
      simp [hshare, hsub]

/-! ## All submissions out of some tokens -/

/-- Submitting the texts is taking the tokens, and none of the texts is refused. -/
theorem foldl_submit_submissions {s r : Script} {tokens : List TaggedToken} (hs : s.error = none)
    (hrow : InRow s.nextLine (tokens.map (·.toToken)))
    (h : s.takeAll? (tokens.map (·.toToken)) = some r) :
    (submissions tokens).foldl Script.submit s = r ∧
      ∀ k, (((submissions tokens).take k).foldl Script.submit s).error = none := by
  induction hn : tokens.length using Nat.strong_induction_on generalizing s tokens with
  | _ n ih =>
  cases tokens with
  | nil =>
    simp only [List.map_nil, Script.takeAll?_nil, Option.some.injEq] at h
    exact ⟨h, fun k => by simpa [submissions] using hs⟩
  | cons t tokens =>
    obtain ⟨text, group, rest, rfl, hsub, htext⟩ := submissions_split _ t tokens hrow
    have happ : ((t :: (group ++ rest)).map (·.toToken)) =
        (t :: group).map (·.toToken) ++ rest.map (·.toToken) := by simp
    rw [happ, Script.takeAll?_append, Option.bind_eq_some_iff] at h
    rw [happ, inRow_append] at hrow
    obtain ⟨mid, hmid, hr⟩ := h
    have hsubmit : s.submit text = mid := by
      apply Script.submit_of_some
      have hself : s.titled none s.name = s := by rw [← hs]; rfl
      rw [Script.submitted?, hself, htext, hmid]
    have herror : mid.error = none := by
      rw [← Script.titled_of_takeAll? hmid]
      exact hs
    have hnext : mid.nextLine = lineAfter s.nextLine ((t :: group).map (·.toToken)) := by
      rw [Script.nextLine_eq, Script.plainTokens_of_takeAll? hmid, lineAfter_append,
        ← Script.nextLine_eq]
    have hlt : rest.length < n := by
      simp only [List.length_cons, List.length_append] at hn
      omega
    obtain ⟨hall, hsome⟩ := ih rest.length hlt herror (hnext ▸ hrow.2) hr rfl
    rw [hsub, List.foldl_cons, hsubmit]
    refine ⟨hall, ?_⟩
    intro k
    cases k with
    | zero => exact hs
    | succ k =>
      rw [List.take_succ_cons, List.foldl_cons, hsubmit]
      exact hsome k

/-- The texts of a faithful script rebuild it from the beginning. -/
theorem Script.Faithful.foldl_submit {s : Script} (h : s.Faithful) :
    (submissions s.tokens.toList).foldl Script.submit .empty = s.bare ∧
      ∀ k, (((submissions s.tokens.toList).take k).foldl Script.submit .empty).error = none :=
  foldl_submit_submissions rfl h.inRow h.rebuilt

/-! ## The law of rebuilding -/

/-- Every script that a store can hold is rebuilt by submitting the texts of its tokens one after
the other: none is refused, and only the name and the error are not in them. So a shell that loads
the script has it again, and a client that shares it keeps all of it for those who watch. -/
theorem submissions_rebuild_the_script (actions : List Action) (s : Script)
    (h : s ∈ (Store.after actions).script.entries) :
    (∀ k, (((submissions s.tokens.toList).take k).foldl Script.submit .empty).error = none) ∧
    (submissions s.tokens.toList).foldl Script.submit .empty =
      { s with error := none, name := Script.defaultName } ∧
    (∀ shell : Shell,
      (shell.dispatchAll (Shell.loading s)).shell.client.present = { s with error := none }) ∧
    (∀ c : Client, c.present = s →
      (c.dispatch (.startSharing false)).client.presenting =
        some ⟨c.generation + 1, none,
          .pending ((submissions s.tokens.toList).map fun text => .newAction (.submit text))⟩) := by
  have hs := Store.faithful_of_mem_entries h
  obtain ⟨hall, haccepted⟩ := hs.foldl_submit
  refine ⟨haccepted, hall, ?_, ?_⟩
  · intro shell
    have hedit : ∀ action ∈ Shell.loading s, action.isEdit = true := by
      intro action ha
      simp only [Shell.loading, List.cons_append, List.mem_cons, List.mem_append, List.mem_map,
        List.not_mem_nil, or_false] at ha
      rcases ha with rfl | ⟨text, -, rfl⟩ | rfl <;> rfl
    rw [Shell.client_dispatchAll, Client.present_foldl_dispatch _ _ hedit, Shell.loading,
      List.cons_append, List.foldl_cons, List.foldl_append, List.foldl_map]
    have hsubmit : (submissions s.tokens.toList).foldl (fun s text => s.apply (.submit text)) .empty =
        s.bare := hall
    have hreset : shell.client.present.apply .reset = .empty := rfl
    rw [hreset, hsubmit]
    rfl
  · intro c hc
    rw [Client.presenting_dispatch_startSharing, hc]
    rfl

/-- Lines that cut a statement and let words touch, with one that is refused and one that is taken
back. -/
def raggedActions : List Action :=
  [.submit "pu", .submit "fd 7 bk 10rp 2 [", .rename "draft", .submit "lt\n\n", .submit "\n 9.5",
    .submit "turn", .submit "]pd", .undo]

theorem ragged_lines_are_rebuilt :
    (Store.after raggedActions).present ∈ (Store.after raggedActions).script.entries ∧
    submissions (Store.after raggedActions).present.tokens.toList =
      ["pu", "fd 7 bk 10", "rp 2 [lt\n\n", "\n ", "9.5"] ∧
    ["pu", "fd 7 bk 10", "rp 2 [lt\n\n", "\n ", "9.5"].foldl Script.submit .empty =
      { (Store.after raggedActions).present with error := none, name := Script.defaultName } := by
  have hmem := (Store.after raggedActions).present_mem_entries
  have htexts : submissions (Store.after raggedActions).present.tokens.toList =
      ["pu", "fd 7 bk 10", "rp 2 [lt\n\n", "\n ", "9.5"] := by decide +kernel
  have hlaw := submissions_rebuild_the_script raggedActions _ hmem
  rw [htexts] at hlaw
  exact ⟨hmem, htexts, hlaw.2.1⟩

end TurtleScript
