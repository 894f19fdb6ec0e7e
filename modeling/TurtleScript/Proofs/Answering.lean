-- How a shell answers to what is typed and to the events of its client. It
-- says something and nothing more, it lets its client deal with one event, or
-- it rebuilds a script. An event changes the timeline by one action at most.
import TurtleScript.Proofs.Sharing.Reporting

namespace TurtleScript

/-! ## What an event does to the timeline -/

def Event.action? : Event → Option Action
  | .action asked | .remote _ asked => some asked
  | _ => none

theorem Timeline.edit_present {σ : Type} (count : σ → Nat) (t : Timeline σ) :
    t.edit count t.present = t := if_pos rfl

/-- Only actions that a watcher would repeat are about the timeline. -/
theorem Store.script_foldl (actions : List Action) {s r : Store} (h : s.script = r.script) :
    (actions.foldl dispatch s).script =
      ((actions.filter Action.isReplayed).foldl dispatch r).script := by
  induction actions generalizing s r with
  | nil => exact h
  | cons action actions ih =>
    by_cases haction : action.isReplayed = true
    · rw [List.filter_cons_of_pos haction]
      exact ih (congrArg (Timeline.reduce Script.nextId Script.apply · action) h)
    · rw [List.filter_cons_of_neg haction]
      refine ih (Eq.trans ?_ h)
      cases action with
      | submit | rename | undo | redo | reset => exact absurd rfl haction
      | _ => exact Timeline.edit_present Script.nextId s.script

namespace Client

/-- What an event does to the timeline: nothing, what its action does, or a reset. -/
inductive Stirs (c : Client) (event : Event) (c' : Client) : Prop
  | rests (hscript : c'.store.script = c.store.script) : Stirs c event c'
  | acts {action : Action} (hasked : event.action? = some action)
      (hscript : c'.store.script = (c.store.dispatch action).script) : Stirs c event c'
  | clears (hscript : c'.store.script = (c.store.dispatch .reset).script) : Stirs c event c'

variable {c : Client} {event : Event} {action : Action} {t : Turn}

theorem Acts.stirs (h : c.Acts action t) (hasked : event.action? = some action) :
    c.Stirs event t.client := by
  have hscript : t.client.store.script =
      ((t.dispatched.filter Action.isReplayed).foldl Store.dispatch c.store).script := by
    rw [h.store_eq]
    exact Store.script_foldl _ rfl
  cases h with
  | plain h => exact .acts hasked rfl
  | unshared h hp | kept h hp ho | sent h hp ho =>
    rcases Action.passing?_cases h with ⟨text, rfl, -, rfl⟩ | ⟨rfl, rfl⟩
    · exact .acts hasked hscript
    · exact .rests hscript
  | starts fresh =>
    cases fresh with
    | true => exact .clears hscript
    | false => exact .rests hscript
  | stops hp => exact .rests hscript
  | follows h => exact .clears hscript
  | leaves hw => exact .rests hscript

theorem stirs_process (c : Client) (event : Event) : c.Stirs event (c.process event).client := by
  have hturn := c.turns_process event
  generalize c.process event = t at hturn
  have hscript : t.client.store.script =
      ((t.dispatched.filter Action.isReplayed).foldl Store.dispatch c.store).script := by
    rw [hturn.store_eq]
    exact Store.script_foldl _ rfl
  cases hturn with
  | acts h => exact h.stirs rfl
  | repeats hw hr h => exact h.stirs rfl
  | _ => exact .rests hscript

end Client

/-! ## What a shell is given -/

/-- What a shell is given: a typed line, with what comes of its errand, or an event of its
client. -/
inductive Cue where
  | line (text : String) (outcome : Except FileFault String)
  | news (event : Event)

def Request.action? : Request → Option Action
  | .submit line => some (.submit line)
  | .undo => some .undo
  | .redo => some .redo
  | .reset => some .reset
  | .rename name => some (.rename name)
  | .share fresh => some (.startSharing fresh)
  | .unshare => some .stopSharing
  | .watch link => some (.tryStartWatching link)
  | .unwatch => some .stopWatching
  | _ => none

/-- The action that a shell is asked for. -/
def Cue.action? : Cue → Option Action
  | .line text _ => (Request.ofLine text).action?
  | .news event => event.action?

/-- A notice about the drawing. -/
def Notice.isOfDrawing : Notice → Bool
  | .rewound _ | .drawn _ => true
  | _ => false

theorem Reply.andThen_assoc (r : Reply) (f g : Shell → Reply) :
    (r.andThen f).andThen g = r.andThen fun s => (f s).andThen g := by
  simp [andThen]

namespace Shell

/-- Answers to one thing. -/
def answer (s : Shell) : Cue → Reply
  | .line text outcome => s.handle outcome (.ofLine text)
  | .news event => s.process event

def answerAll (s : Shell) (cues : List Cue) : Reply :=
  cues.foldl (fun r cue => r.andThen (·.answer cue)) (s.say [])

theorem answerAll_snoc (s : Shell) (cues : List Cue) (cue : Cue) :
    s.answerAll (cues ++ [cue]) = (s.answerAll cues).andThen (·.answer cue) := List.foldl_append

/-- All that a shell can do in answer to something. -/
inductive Answers (s : Shell) (cue : Cue) : Reply → Prop
  | tells {notices : List Notice} (h : ∀ n ∈ notices, n.isOfDrawing = false) :
      Answers s cue (s.say notices)
  | turns {event : Event} (h : event.action? = cue.action?) : Answers s cue (s.process event)
  | loads (script : Script) (h : cue.action? = none) :
      Answers s cue (s.dispatchAll (loading script))

theorem answers_handle (s : Shell) (text : String) (outcome : Except FileFault String) :
    s.Answers (.line text outcome) (s.handle outcome (.ofLine text)) := by
  have hturns : ∀ action, (Request.ofLine text).action? = some action →
      s.Answers (.line text outcome) (s.dispatch action) := by
    intro action h
    have hasked : (Event.action action).action? = (Cue.line text outcome).action? := h.symm
    exact .turns hasked
  have htells : ∀ n : Notice, n.isOfDrawing = false → s.Answers (.line text outcome) (s.say [n]) :=
    fun n h => .tells (by simpa using h)
  unfold handle
  cases hr : Request.ofLine text with
  | submit line =>
    simp only
    split
    · exact htells _ rfl
    · exact hturns _ (by rw [hr]; rfl)
  | load path =>
    simp only
    split
    · exact .loads _ (congrArg Request.action? hr)
    · exact htells _ rfl
  | save path =>
    simp only
    split
    · exact htells _ rfl
    · exact htells _ rfl
  | quit => exact .tells (by simp)
  | undo | redo | reset | rename | share | unshare | watch | unwatch =>
    exact hturns _ (by rw [hr]; rfl)
  | _ => exact htells _ rfl

/-- A shell does one of these things in answer to anything. -/
theorem answers_answer (s : Shell) (cue : Cue) : s.Answers cue (s.answer cue) := by
  cases cue with
  | line text outcome => exact answers_handle s text outcome
  | news event => exact .turns rfl

/-! ## Actions in order -/

theorem say_andThen (s : Shell) (f : Shell → Reply) : (s.say []).andThen f = f s := by
  simp [Reply.andThen, say]

theorem andThen_dispatchAll (r : Reply) (actions : List Action) :
    r.andThen (·.dispatchAll actions) =
      actions.foldl (fun r action => r.andThen (·.dispatch action)) r := by
  induction actions generalizing r with
  | nil => simp [dispatchAll, Reply.andThen, say]
  | cons action actions ih =>
    rw [List.foldl_cons, ← ih, Reply.andThen_assoc]
    congr 1
    funext s
    rw [ih, ← say_andThen s (·.dispatch action)]
    rfl

theorem dispatchAll_cons (s : Shell) (action : Action) (actions : List Action) :
    s.dispatchAll (action :: actions) = (s.dispatch action).andThen (·.dispatchAll actions) := by
  rw [andThen_dispatchAll, ← say_andThen s (·.dispatch action)]
  rfl

end Shell

end TurtleScript
