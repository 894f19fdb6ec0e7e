-- A refused submission leaves no trace but its error. The error is cleared by
-- the next submission, and nothing else looks at it; so a run comes to the same
-- end, apart from errors, when submissions that it refused are left out.
import TurtleScript.Proofs.Entries
import TurtleScript.Proofs.Taking

namespace TurtleScript

/-! ## Timelines seen through a function -/

namespace Timeline

variable {σ τ : Type} (f : σ → τ)

/-- The timeline with every entry replaced by its image. -/
def map (t : Timeline σ) : Timeline τ := ⟨t.past.map f, f t.present, t.future.map f⟩

theorem map_undo (t : Timeline σ) : t.undo.map f = (t.map f).undo := by
  obtain ⟨past, present, future⟩ := t
  cases past <;> rfl

theorem map_redo (t : Timeline σ) : t.redo.map f = (t.map f).redo := by
  obtain ⟨past, present, future⟩ := t
  cases future <;> rfl

variable {f} {count : σ → Nat} {t u : Timeline σ}

/-- What can be seen of an edit depends on what could be seen before, if the count can be seen. -/
theorem map_edit_congr (hcount : ∀ a b, f a = f b → count a = count b) (h : t.map f = u.map f)
    {a b : σ} (hab : f a = f b) : (t.edit count a).map f = (u.edit count b).map f := by
  obtain ⟨past, present, future⟩ := t
  obtain ⟨past', present', future'⟩ := u
  simp only [map, mk.injEq] at h
  obtain ⟨hpast, hpresent, hfuture⟩ := h
  unfold edit
  simp only [hcount a b hab, hcount present present' hpresent]
  split
  · simp [map, hpast, hab, hfuture]
  · simp [map, hpast, hpresent, hab]

/-- What can be seen of an action depends on what could be seen before, if this is so for the inner
reducer and the count can be seen. -/
theorem map_reduce_congr {inner : σ → Action → σ}
    (hcount : ∀ a b, f a = f b → count a = count b)
    (hinner : ∀ a b action, f a = f b → f (inner a action) = f (inner b action))
    (h : t.map f = u.map f) (action : Action) :
    (t.reduce count inner action).map f = (u.reduce count inner action).map f := by
  have hpresent : f t.present = f u.present := congrArg present h
  cases action with
  | undo =>
    have hundo : t.undo.map f = u.undo.map f := by rw [map_undo, map_undo, h]
    exact hundo
  | redo =>
    have hredo : t.redo.map f = u.redo.map f := by rw [map_redo, map_redo, h]
    exact hredo
  | _ => exact map_edit_congr hcount h (hinner _ _ _ hpresent)

end Timeline

/-! ## Errors left out of account -/

namespace Script

/-- The script without its error. -/
def withoutError (s : Script) : Script := { s with error := none }

/-- A submission begins by clearing the error. -/
theorem submitted?_withoutError (s : Script) (text : String) :
    s.withoutError.submitted? text = s.submitted? text := rfl

/-- What an action does apart from errors does not depend on the error before it. -/
theorem withoutError_apply (s : Script) (action : Action) :
    (s.withoutError.apply action).withoutError = (s.apply action).withoutError := by
  cases action with
  | submit text =>
    have hsubmit : (s.withoutError.submit text).withoutError = (s.submit text).withoutError := by
      cases h : s.submitted? text with
      | some r => rw [submit_of_some h, submit_of_some ((submitted?_withoutError s text).trans h)]
      | none =>
        obtain ⟨e, he⟩ := submit_of_none h
        obtain ⟨e', he'⟩ := submit_of_none ((submitted?_withoutError s text).trans h)
        rw [he, he']
        rfl
    exact hsubmit
  | _ => rfl

theorem withoutError_apply_congr {s r : Script} (h : s.withoutError = r.withoutError)
    (action : Action) : (s.apply action).withoutError = (r.apply action).withoutError := by
  rw [← withoutError_apply s, h, withoutError_apply r]

theorem nextId_eq_of_withoutError {s r : Script} (h : s.withoutError = r.withoutError) :
    s.nextId = r.nextId := by
  have hid := congrArg nextId h
  exact hid

/-- A refused submission leaves an error and nothing else. -/
theorem withoutError_submit_of_error {s : Script} {text : String}
    (h : (s.submit text).error.isSome = true) : (s.submit text).withoutError = s.withoutError := by
  have hrefused : s.submitted? text = none := by
    rw [Option.eq_none_iff_forall_ne_some]
    intro r hr
    rw [(error_submit_eq_none_iff s text).mpr (by rw [hr]; rfl)] at h
    cases h
  obtain ⟨e, he⟩ := submit_of_none hrefused
  rw [he]
  rfl

end Script

namespace Store

/-- The store without the errors of its entries. -/
def withoutErrors (s : Store) : Store := { s with script := s.script.map Script.withoutError }

theorem withoutErrors_dispatch_congr {s r : Store} (h : s.withoutErrors = r.withoutErrors)
    (action : Action) : (s.dispatch action).withoutErrors = (r.dispatch action).withoutErrors := by
  obtain ⟨script, environment⟩ := s
  obtain ⟨script', environment'⟩ := r
  simp only [withoutErrors, mk.injEq] at h
  obtain ⟨hscript, rfl⟩ := h
  have hreduce := Timeline.map_reduce_congr (fun _ _ => Script.nextId_eq_of_withoutError)
    (fun _ _ action hab => Script.withoutError_apply_congr hab action) hscript action
  simp only [withoutErrors, dispatch, hreduce]

/-- A refused submission changes nothing but the error of the present script. -/
theorem withoutErrors_dispatch_of_error {s : Store} {text : String}
    (h : (s.dispatch (.submit text)).present.error.isSome = true) :
    (s.dispatch (.submit text)).withoutErrors = s.withoutErrors := by
  rw [present_dispatch s (by simp) (by simp)] at h
  have hsame : (s.present.submit text).withoutError = s.present.withoutError :=
    Script.withoutError_submit_of_error h
  have hedit : (s.dispatch (.submit text)).script =
      { s.script with present := s.present.submit text } :=
    if_pos (Script.nextId_eq_of_withoutError hsame)
  have hmap : (s.dispatch (.submit text)).script.map Script.withoutError =
      s.script.map Script.withoutError := by
    rw [hedit]
    exact congrArg (fun present => Timeline.mk (s.script.past.map Script.withoutError) present
      (s.script.future.map Script.withoutError)) hsame
  unfold withoutErrors
  rw [hmap]
  rfl

/-! ## Runs with submissions left out -/

/-- The second list has the actions of the first, which begin with a store, but for some
submissions that are refused there. -/
inductive Omits : Store → List Action → List Action → Prop
  | nil {s : Store} : Omits s [] []
  | keeps {s : Store} {action : Action} {actions kept : List Action}
      (h : Omits (s.dispatch action) actions kept) : Omits s (action :: actions) (action :: kept)
  | drops {s : Store} {text : String} {actions kept : List Action}
      (hrefused : (s.dispatch (.submit text)).present.error.isSome = true)
      (h : Omits (s.dispatch (.submit text)) actions kept) :
      Omits s (.submit text :: actions) kept

theorem Omits.withoutErrors_foldl {s : Store} {actions kept : List Action}
    (h : Omits s actions kept) :
    ∀ r : Store, s.withoutErrors = r.withoutErrors →
      (actions.foldl dispatch s).withoutErrors = (kept.foldl dispatch r).withoutErrors := by
  induction h with
  | nil => exact fun r hr => hr
  | keeps _ ih => exact fun r hr => ih _ (withoutErrors_dispatch_congr hr _)
  | drops hrefused _ ih =>
    exact fun r hr => ih r ((withoutErrors_dispatch_of_error hrefused).trans hr)

/-- Refused submissions leave no trace: when any of them are left out of a run from the beginning,
the past, the present and the future at its end are as long and, entry by entry, the same apart
from errors. -/
theorem refused_submissions_leave_no_trace {actions kept : List Action}
    (h : Omits .empty actions kept) : (after actions).withoutErrors = (after kept).withoutErrors :=
  h.withoutErrors_foldl .empty rfl

/-- A block is open while lines are refused after they have drawn, named and taken back. -/
def faultyLines : List Action :=
  [.submit "fd 1 rp 2 [ rt 90\n", .submit "fd 10 ] fd 5 fnord\n", .rename "draft", .submit "bk 3\n",
    .submit "] ]\n", .undo, .submit "rp 20000 []\n", .submit "]\n", .submit "fd x\n", .redo, .undo]

theorem faulty_lines_leave_no_trace :
    let kept := [.submit "fd 1 rp 2 [ rt 90\n", .rename "draft", .submit "bk 3\n", .undo,
      .submit "rp 20000 []\n", .submit "]\n", .redo, .undo]
    Omits .empty faultyLines kept ∧ (after faultyLines).withoutErrors = (after kept).withoutErrors ∧
      (after kept).script.past.length = 1 ∧ (after kept).script.future.length = 1 ∧
      (after kept).present.drawing.log.size = 3 := by
  intro kept
  have homits : Omits .empty faultyLines kept :=
    .keeps (.drops (by decide +kernel) (.keeps (.keeps (.drops (by decide +kernel) (.keeps (.keeps
      (.keeps (.drops (by decide +kernel) (.keeps (.keeps .nil))))))))))
  exact ⟨homits, refused_submissions_leave_no_trace homits, by decide +kernel, by decide +kernel,
    by decide +kernel⟩

end Store

end TurtleScript
