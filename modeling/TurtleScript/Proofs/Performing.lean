-- What a client does with the script when it deals with an action. Sharing
-- and watching never touch the script by themselves; so after an action about
-- the script, and after many of them, the present script is what the same
-- actions make of it without any client.
import TurtleScript.Proofs.Entries
import TurtleScript.Shell.Session

namespace TurtleScript

/-- An action that is about the present script and does not move along the timeline. -/
def Action.isEdit : Action → Bool
  | .submit _ | .rename _ | .reset => true
  | _ => false

/-! ## Actions that leave the script alone -/

@[simp] theorem Client.present_record (c : Client) {action : Action} (hundo : action ≠ .undo)
    (hredo : action ≠ .redo) : (c.record action).client.present = c.present.apply action :=
  Store.present_dispatch c.store hundo hredo

/-- Passing an action on does not touch the store. -/
theorem Client.store_relay (c : Client) (inner : Action) : (c.relay inner).client.store = c.store := by
  unfold relay
  cases c.presenting with
  | none => rfl
  | some p =>
    cases hp : p.outlet with
    | pending messages => simp [hp, stay]
    | «open» line => simp [hp, ask]

theorem Client.present_perform_share (c : Client) (inner : Action) :
    (c.perform (.share inner)).client.present = c.present := by
  have hstore := store_relay (c.record (.share inner)).client inner
  have hrecord : (c.record (.share inner)).client.present = c.present :=
    present_record c (by simp) (by simp)
  exact (congrArg Store.present hstore).trans hrecord

/-! ## Actions about the script -/

/-- The turn of a client that submits a line: the line is passed on first. -/
theorem Client.dispatch_submit (c : Client) (text : String) :
    c.dispatch (.submit text) =
      (c.perform (.share (.submit text))).andThen (·.record (.submit text)) := by
  simp [dispatch, perform, Turn.andThen, stay]

theorem Client.present_dispatch (c : Client) {action : Action} (h : action.isEdit = true) :
    (c.dispatch action).client.present = c.present.apply action := by
  cases action with
  | submit text =>
    rw [dispatch_submit]
    have hshare := present_perform_share c (.submit text)
    have hundo : Action.submit text ≠ .undo := by simp
    have hredo : Action.submit text ≠ .redo := by simp
    have hrecord := present_record (c.perform (.share (.submit text))).client hundo hredo
    rw [hshare] at hrecord
    exact hrecord
  | rename name => exact present_record c (by simp) (by simp)
  | reset => exact present_record c (by simp) (by simp)
  | _ => cases h

/-- A client that starts to share keeps what rebuilds its script, unless it shares an empty
one. -/
theorem Client.presenting_dispatch_startSharing (c : Client) (fresh : Bool) :
    (c.dispatch (.startSharing fresh)).client.presenting =
      some ⟨c.generation + 1, none, .pending (if fresh then [] else rebuilding c.present)⟩ := by
  obtain ⟨config, store, presenting, watching, generation⟩ := c
  have hrecord : (store.dispatch (.startSharing fresh)).present = store.present :=
    Store.present_dispatch store (by simp) (by simp)
  cases presenting <;> cases fresh <;>
    simp [dispatch, perform, startSharing, dropPresenting, openPresenting, Turn.andThen, record, stay,
      ask, present, hrecord]

/-- The client of a shell that deals with actions in order. -/
theorem Shell.client_dispatchAll (s : Shell) (actions : List Action) :
    (s.dispatchAll actions).shell.client =
      actions.foldl (fun c action => (c.dispatch action).client) s.client := by
  have run : ∀ (r : Reply),
      (actions.foldl (fun r action => r.andThen (·.dispatch action)) r).shell.client =
      actions.foldl (fun c action => (c.dispatch action).client) r.shell.client := by
    induction actions with
    | nil => exact fun r => rfl
    | cons action actions ih => exact fun r => ih _
  exact run (s.say [])

/-- After actions about the script the present one is what they make of it. -/
theorem Client.present_foldl_dispatch (c : Client) (actions : List Action)
    (h : ∀ action ∈ actions, action.isEdit = true) :
    (actions.foldl (fun c action => (c.dispatch action).client) c).present =
      actions.foldl Script.apply c.present := by
  induction actions generalizing c with
  | nil => rfl
  | cons action actions ih =>
    rw [List.foldl_cons, List.foldl_cons, ih _ fun a ha => h a (List.mem_cons_of_mem _ ha),
      present_dispatch c (h action List.mem_cons_self)]

end TurtleScript
