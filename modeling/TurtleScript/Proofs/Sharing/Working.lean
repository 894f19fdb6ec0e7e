-- One step of a task in the network of two, by how far the task has come: it
-- calls, hears a message, finds that its line has ended, or goes because it
-- was given up.
import TurtleScript.Proofs.Sharing.Attending
import TurtleScript.Proofs.Sharing.Pair

namespace TurtleScript

/-! ## Tasks -/

/-- The task by which the presenter presents. -/
def presenterTask (phase : Phase) (cancelled : Bool) : Task := ⟨0, 1, .present, phase, cancelled⟩

/-- A task by which the observer watches. -/
def watcherTask (generation : Nat) (id : String) (phase : Phase) (cancelled : Bool) : Task :=
  ⟨1, generation, .watch id, phase, cancelled⟩

/-- Tasks of which one has come so far. -/
def advanced (ts : List Task) (t : Nat) (phase : Phase) : List Task :=
  ts.modify t fun task => { task with phase }

theorem getElem?_advanced_self {ts : List Task} {t : Nat} {task : Task} (h : ts[t]? = some task)
    (phase : Phase) : (advanced ts t phase)[t]? = some { task with phase } := by
  unfold advanced
  rw [List.getElem?_modify, h]
  simp

theorem getElem?_advanced_ne (ts : List Task) {t u : Nat} (h : u ≠ t) (phase : Phase) :
    (advanced ts t phase)[u]? = ts[u]? := by
  unfold advanced
  rw [List.getElem?_modify]
  simp [Ne.symm h]

/-- A task among the advanced ones is the one that has come further, or was there before. -/
theorem advanced_cases {ts : List Task} {t u : Nat} {phase : Phase} {task : Task}
    (h : (advanced ts t phase)[u]? = some task) :
    (u = t ∧ ∃ old, ts[u]? = some old ∧ task = { old with phase }) ∨ u ≠ t ∧ ts[u]? = some task := by
  by_cases hu : u = t
  · subst hu
    unfold advanced at h
    rw [List.getElem?_modify, Option.map_eq_map, Option.map_eq_some_iff] at h
    obtain ⟨old, hold, hsame⟩ := h
    exact Or.inl ⟨rfl, old, hold, by simpa using hsame.symm⟩
  · rw [getElem?_advanced_ne ts hu] at h
    exact Or.inr ⟨hu, h⟩

@[simp] theorem length_advanced (ts : List Task) (t : Nat) (phase : Phase) :
    (advanced ts t phase).length = ts.length := List.length_modify ..

/-! ## The near end of a line -/

/-- A link of which the near end has received one message, so that these are left. -/
def Link.heardNear (l : Link) (rest : List String) : Link :=
  { l with down := { l.down with waiting := rest } }

theorem Link.receive_near_cons {l : Link} {text : String} {rest : List String}
    (h : l.down.waiting = text :: rest) : l.receive .near = .message text (l.heardNear rest) := by
  simp [receive, incoming, Pipe.receive, h, Reception.map, withIncoming, heardNear]

theorem Link.receive_near_nil {l : Link} (h : l.down.waiting = []) :
    l.receive .near = if l.down.takesMore then .nothing else .ended := by
  unfold receive incoming Pipe.receive
  rw [h]
  cases l.down.takesMore <;> rfl

/-- A relay that somebody has just called. -/
def Relay.called (r : Relay) (text : String) : Relay :=
  { r with lines := r.lines ++ [⟨⟨⟨[text], true, true⟩, .fresh⟩, .greeting⟩] }

theorem Relay.onLink_connect (r : Relay) (text : String) :
    (r.connect .greeting).onLink r.lines.length (·.send .near text) = r.called text := by
  have hmodify : ∀ (lines : List Line) (line : Line) (f : Line → Line),
      (lines ++ [line]).modify lines.length f = lines ++ [f line] := by
    intro lines line f
    induction lines with
    | nil => rfl
    | cons first lines ih => simpa using ih
  unfold onLink connect called
  simp only [hmodify]
  rfl

namespace Network

section Work

variable {r : Relay} {p o : Client} {pin oin : List Event} {ts : List Task} {t g l : Nat}
  {task : Task} {line : Line} {id text : String} {rest : List String} {cancelled : Bool}

/-! ## What a task does next -/

/-- A task that works does what comes next, or it goes because it was given up. -/
theorem work_cases {n m : Network} (h : n.work t = some m) :
    n.lag t = some m ∨ ∃ task, n.tasks[t]? = some task ∧ task.cancelled = true ∧
      task.phase ≠ .finished ∧ m = n.giveUp t task := by
  unfold work at h
  unfold lag
  cases htask : n.tasks[t]? with
  | none => simp [htask] at h
  | some task =>
    simp only [htask] at h ⊢
    cases hphase : task.phase with
    | finished => simp [hphase] at h
    | _ =>
      simp only [hphase] at h ⊢
      by_cases hcancelled : task.cancelled = true
      · rw [if_pos hcancelled, Option.some.injEq] at h
        exact Or.inr ⟨task, rfl, hcancelled, by simp [hphase], h.symm⟩
      · rw [if_neg hcancelled] at h
        exact Or.inl h

theorem work_eq_lag {n : Network} (htask : n.tasks[t]? = some task) (h : task.cancelled = false) :
    n.work t = n.lag t := by
  unfold work lag
  simp only [htask, h]
  cases task.phase <;> rfl

theorem lag_finished {n : Network} (htask : n.tasks[t]? = some task) (h : task.phase = .finished) :
    n.lag t = none := by
  unfold lag
  simp [htask, h]

theorem lag_listen {n : Network} (htask : n.tasks[t]? = some task)
    (h : task.phase = .awaiting l ∨ task.phase = .listening l) : n.lag t = n.listen t task l := by
  unfold lag
  rcases h with h | h <;> simp [htask, h]

/-! ## Calling -/

theorem lag_present (h : ts[t]? = some (presenterTask .calling cancelled)) :
    (pair r p pin o oin ts).lag t =
      some (pair (r.called Relay.startText) p pin o oin (advanced ts t (.awaiting r.lines.length))) := by
  rw [← Relay.onLink_connect]
  unfold lag
  simp only [pair, h]
  rfl

theorem lag_watch (h : ts[t]? = some (watcherTask g id .calling cancelled)) :
    (pair r p pin o oin ts).lag t =
      some (pair (r.called (Relay.watchText id)) p pin o (oin ++ [.observerJoined g])
        (advanced ts t (.listening r.lines.length))) := by
  rw [← Relay.onLink_connect]
  unfold lag
  simp only [pair, h]
  rfl

/-! ## Listening -/

theorem listen_silent (hline : r.lines[l]? = some line) (h : line.link.down.waiting = []) :
    (pair r p pin o oin ts).listen t task l =
      if line.link.down.takesMore then none
      else some (((pair r p pin o oin ts).reportClosed task).giveUp t task) := by
  have hlink : (pair r p pin o oin ts).relay.link? l = some line.link := by
    simp [pair, Relay.link?, hline]
  unfold listen
  simp only [hlink, Link.receive_near_nil h]
  cases line.link.down.takesMore <;> rfl

theorem listen_message (hline : r.lines[l]? = some line)
    (h : line.link.down.waiting = text :: rest) :
    (pair r p pin o oin ts).listen t task l =
      some ((pair (r.onLink l fun _ => line.link.heardNear rest) p pin o oin ts).hear t task l
        text) := by
  have hlink : (pair r p pin o oin ts).relay.link? l = some line.link := by
    simp [pair, Relay.link?, hline]
  unfold listen
  simp only [hlink, Link.receive_near_cons h]
  rfl

/-- The presenter is told its line and its id. -/
theorem hear_assigned :
    (pair r p pin o oin ts).hear t (presenterTask (.awaiting l) cancelled) l (assignedText id) =
      pair r p (pin ++ [.presenterReady 1 id l]) o oin (advanced ts t (.listening l)) := by
  simp only [hear, presenterTask, assignedId?_assignedText]
  rfl

theorem hear_shown :
    (pair r p pin o oin ts).hear t (watcherTask g id (.listening l) cancelled) l (shownText text) =
      pair r p pin o (oin ++ [.remote g (.submit text)]) ts := by
  simp only [hear, watcherTask, ofText?_shownText]
  rfl

/-- Whatever a watcher hears, it tells its client, or it goes. -/
theorem hear_watcher :
    (∃ action, (pair r p pin o oin ts).hear t (watcherTask g id (.listening l) cancelled) l text =
        pair r p pin o (oin ++ [.remote g action]) ts) ∨
      (pair r p pin o oin ts).hear t (watcherTask g id (.listening l) cancelled) l text =
        pair (r.onLink l (·.leave .near)) p pin o (oin ++ [.sessionClosed .observer g])
          (advanced ts t .finished) := by
  unfold hear watcherTask
  cases haction : Action.ofText? text with
  | some action => exact Or.inl ⟨action, rfl⟩
  | none => exact Or.inr rfl

/-! ## Going -/

theorem giveUp_calling (h : task.phase = .calling) :
    (pair r p pin o oin ts).giveUp t task = pair r p pin o oin (advanced ts t .finished) := by
  unfold giveUp
  simp only [h]
  rfl

theorem giveUp_awaiting (h : task.phase = .awaiting l) :
    (pair r p pin o oin ts).giveUp t task =
      pair (r.onLink l (·.leave .near)) p pin o oin (advanced ts t .finished) := by
  unfold giveUp
  simp only [h]
  rfl

theorem giveUp_presenting :
    (pair r p pin o oin ts).giveUp t (presenterTask (.listening l) cancelled) =
      pair (r.onLink l (·.abandon .near)) p pin o oin (advanced ts t .finished) := rfl

theorem giveUp_watching :
    (pair r p pin o oin ts).giveUp t (watcherTask g id (.listening l) cancelled) =
      pair (r.onLink l (·.leave .near)) p pin o oin (advanced ts t .finished) := rfl

theorem lag_ended_presenting (h : ts[t]? = some (presenterTask (.listening l) cancelled))
    (hline : r.lines[l]? = some line) (hwaiting : line.link.down.waiting = [])
    (hmore : line.link.down.takesMore = false) :
    (pair r p pin o oin ts).lag t =
      some (pair (r.onLink l (·.abandon .near)) p (pin ++ [.sessionClosed .presenter 1]) o oin
        (advanced ts t .finished)) := by
  rw [lag_listen h (Or.inr rfl), listen_silent hline hwaiting, hmore]
  rfl

theorem lag_ended_watching (h : ts[t]? = some (watcherTask g id (.listening l) cancelled))
    (hline : r.lines[l]? = some line) (hwaiting : line.link.down.waiting = [])
    (hmore : line.link.down.takesMore = false) :
    (pair r p pin o oin ts).lag t =
      some (pair (r.onLink l (·.leave .near)) p pin o (oin ++ [.sessionClosed .observer g])
        (advanced ts t .finished)) := by
  rw [lag_listen h (Or.inr rfl), listen_silent hline hwaiting, hmore]
  rfl

end Work

end Network

end TurtleScript
