-- What goes over the lines is understood at the other end. A presenter's action
-- is read by the relay as some JSON; what the relay makes of it for the
-- watchers is another text, and they read the same action in it. Actions that
-- are wrapped too often for a reader are not passed on at all.
import TurtleScript.Proofs.Json.RoundTrip
import TurtleScript.Sharing.Message

namespace TurtleScript

/-! ## Tagged fields in order -/

section Tagged

variable {key : String} {value : Json}

/-- The relay may have the tag behind the other field of an action. -/
theorem sorted_tagged (tag : String) (value : Json) (hkey : key ≠ "type") :
    (Json.obj [("type", .str tag), (key, value)]).sorted =
        .obj [(key, value.sorted), ("type", .str tag)] ∨
      (Json.obj [("type", .str tag), (key, value)]).sorted =
        .obj [("type", .str tag), (key, value.sorted)] := by
  have hsorted : (Json.obj [("type", .str tag), (key, value)]).sorted =
      .obj (Json.putSorted key value.sorted [("type", .str tag)]) := rfl
  rw [hsorted]
  unfold Json.putSorted
  rw [if_neg hkey]
  split
  · exact Or.inl rfl
  · exact Or.inr rfl

theorem isPlain_tagged (tag : String) (hkey : key ≠ "type")
    (h : value.isPlain = true ∧ value.sorted.isPlain = true) :
    (Json.obj [("type", .str tag), (key, value)]).isPlain = true ∧
      (Json.obj [("type", .str tag), (key, value)]).sorted.isPlain = true := by
  obtain ⟨hvalue, hsorted⟩ := h
  refine ⟨by simp [Json.isPlain, Json.fieldsPlain, hvalue], ?_⟩
  rcases sorted_tagged tag value hkey with heq | heq
  · simp [heq, Json.isPlain, Json.fieldsPlain, hsorted]
  · simp [heq, Json.isPlain, Json.fieldsPlain, hsorted]

theorem depth_tagged (tag : String) (hkey : key ≠ "type") {n : Nat}
    (h : value.depth = n ∧ value.sorted.depth = n) :
    (Json.obj [("type", .str tag), (key, value)]).depth = n + 1 ∧
      (Json.obj [("type", .str tag), (key, value)]).sorted.depth = n + 1 := by
  obtain ⟨hvalue, hsorted⟩ := h
  refine ⟨by simp [Json.depth, Json.fieldsDepth, hvalue], ?_⟩
  rcases sorted_tagged tag value hkey with heq | heq
  · simp [heq, Json.depth, Json.fieldsDepth, hsorted]
  · simp [heq, Json.depth, Json.fieldsDepth, hsorted]

theorem tagged?_sorted {tag : String} {names : List String} {nested : Bool} (value : Json)
    (hkey : key ≠ "type") (htag : names.contains tag = true) :
    Json.tagged? "type" names nested (Json.obj [("type", .str tag), (key, value)]).sorted =
      some (tag, .obj [(key, value.sorted)]) := by
  rcases sorted_tagged tag value hkey with heq | heq
  · rw [heq]
    simp [Json.tagged?, hkey, Json.tagName?, List.elem_iff.mp htag]
  · rw [heq]
    simp [Json.tagged?, hkey, Json.tagName?, List.elem_iff.mp htag]

end Tagged

/-! ## Actions as JSON -/

theorem Action.isPlain_toJson (a : Action) :
    a.toJson.isPlain = true ∧ a.toJson.sorted.isPlain = true := by
  induction a with
  | share inner ih => exact @isPlain_tagged "innerAction" inner.toJson _ (by decide) ih
  | submit | rename | startSharing | startedSharing | tryStartWatching =>
    exact isPlain_tagged _ (by decide) ⟨rfl, rfl⟩
  | _ => exact ⟨rfl, rfl⟩

theorem Action.depth_toJson (a : Action) :
    a.toJson.depth = a.wraps + 1 ∧ a.toJson.sorted.depth = a.wraps + 1 := by
  induction a with
  | share inner ih => exact @depth_tagged "innerAction" inner.toJson _ (by decide) _ ih
  | submit | rename | startSharing | startedSharing | tryStartWatching =>
    exact depth_tagged _ (by decide) ⟨rfl, rfl⟩
  | _ => exact ⟨rfl, rfl⟩

/-- A way to write actions that keeps their tags and fields, in whatever order. -/
structure KeepsActions (f : Json → Json) : Prop where
  str : ∀ s, f (.str s) = .str s
  bool : ∀ b, f (.bool b) = .bool b
  tagged : ∀ (a : Action) (nested : Bool), Json.tagged? "type" Action.tags nested (f a.toJson) =
    some (a.tag, .obj (a.extraFields.map fun field => (field.1, f field.2)))

theorem keepsActions_id : KeepsActions id where
  str _ := rfl
  bool _ := rfl
  tagged a nested := by cases a <;> rfl

theorem keepsActions_sorted : KeepsActions Json.sorted where
  str _ := rfl
  bool _ := rfl
  tagged a nested := by
    cases a with
    | submit | rename | startSharing | startedSharing | tryStartWatching | share =>
      exact tagged?_sorted _ (by decide) rfl
    | _ => rfl

/-- An action that is written in such a way is read back, inside of another one or not. -/
theorem KeepsActions.read {f : Json → Json} (h : KeepsActions f) (a : Action) :
    ∀ fuel nested, a.wraps < fuel → readAction? fuel nested (f a.toJson) = some a := by
  induction a with
  | share inner ih =>
    intro fuel nested hfuel
    obtain ⟨fuel, rfl⟩ := Nat.exists_eq_add_one_of_ne_zero (Nat.ne_zero_of_lt hfuel)
    have hinner : readAction? fuel true (f inner.toJson) = some inner :=
      ih fuel true (Nat.lt_of_succ_lt_succ hfuel)
    unfold readAction?
    rw [h.tagged]
    exact congrArg (Option.map Action.share) hinner
  | submit | rename | startSharing | startedSharing | tryStartWatching =>
    intro fuel nested hfuel
    obtain ⟨fuel, rfl⟩ := Nat.exists_eq_add_one_of_ne_zero (Nat.ne_zero_of_lt hfuel)
    unfold readAction?
    rw [h.tagged]
    simp only [Action.extraFields, List.map_cons, List.map_nil, h.str, h.bool]
    rfl
  | _ =>
    intro fuel nested hfuel
    obtain ⟨fuel, rfl⟩ := Nat.exists_eq_add_one_of_ne_zero (Nat.ne_zero_of_lt hfuel)
    unfold readAction?
    rw [h.tagged]
    rfl

theorem Action.ofJson?_toJson (a : Action) (nested : Bool) :
    Action.ofJson? nested a.toJson = some a := by
  unfold ofJson?
  rw [Json.whole?_of_isPlain a.isPlain_toJson.1, Option.bind_some, a.depth_toJson.1]
  exact keepsActions_id.read a _ _ (by omega)

/-! ## Actions as they are passed on -/

/-- A message about an action is read unless the action is wrapped too often. -/
theorem Message.read_newAction {α : Type} (read? : Json → Option α) (a : Action) :
    (Json.parse? (newAction a).text).bind (ofJson? read?) =
      if a.wraps + 2 ≤ Json.maxDepth then (read? a.toJson).map newAction else none := by
  let whole : Json := (newAction a).toJson Action.toJson
  have hplain : whole.isPlain = true := by
    simp [whole, toJson, Json.isPlain, Json.fieldsPlain, a.isPlain_toJson]
  have hdepth : whole.depth = a.wraps + 2 := by
    simp [whole, toJson, Json.depth, Json.fieldsDepth, a.depth_toJson]
  have hread : Json.parse? (newAction a).text = some (whole.cropped Json.maxDepth) :=
    Json.parse?_compact_cropped hplain
  rw [hread, Option.bind_some, ofJson?, Json.whole?_cropped hplain, hdepth]
  split
  · rfl
  · rfl

theorem Message.ofText?_newAction (a : Action) :
    ofText? (newAction a).text = if a.wraps + 2 ≤ Json.maxDepth then some (newAction a) else none := by
  unfold ofText?
  rw [read_newAction, a.ofJson?_toJson true]
  rfl

theorem Message.relayed?_newAction (a : Action) :
    relayed? (newAction a).text =
      if a.wraps + 2 ≤ Json.maxDepth then some (newAction a.toJson.sorted) else none :=
  read_newAction _ a

/-- The action is read back from what the relay makes of it. -/
theorem Action.ofText?_sorted (a : Action) :
    Action.ofText? a.toJson.sorted.compact =
      if a.wraps + 1 ≤ Json.maxDepth then some a else none := by
  have hplain := a.isPlain_toJson.2
  unfold ofText?
  rw [Json.parse?_compact_cropped hplain, Option.bind_some, ofJson?, Json.whole?_cropped hplain,
    a.depth_toJson.2]
  split
  · rw [Option.bind_some, a.depth_toJson.2]
    exact keepsActions_sorted.read a _ _ (by omega)
  · rfl

/-- The action that a message of a presenter passes on, as watchers get it. -/
def passedAction? (text : String) : Option String :=
  match Message.relayed? text with
  | some (.newAction action) => some action.compact
  | _ => none

/-- The relay passes on any action as it is, but for the order of its fields. -/
theorem passedAction?_newAction {inner : Action} {shown : String}
    (h : passedAction? (Message.newAction inner).text = some shown) :
    shown = inner.toJson.sorted.compact := by
  unfold passedAction? at h
  rw [Message.relayed?_newAction] at h
  split at h
  · next hrelayed =>
    split at hrelayed
    · obtain rfl := Message.newAction.inj (Option.some.inj hrelayed)
      exact (Option.some.inj h).symm
    · cases hrelayed
  · cases h

/-- What watchers read as a line of script was passed on as that line, whoever has made it. -/
theorem eq_submit_of_passedAction? {inner : Action} {shown text : String}
    (h : passedAction? (Message.newAction inner).text = some shown)
    (hread : Action.ofText? shown = some (.submit text)) : inner = .submit text := by
  obtain rfl := passedAction?_newAction h
  rw [Action.ofText?_sorted] at hread
  split at hread
  · exact Option.some.inj hread
  · cases hread

/-! ## Lines of script -/

/-- The text by which a presenter passes on a line of script. -/
def passedText (text : String) : String := (Message.newAction (.submit text)).text

/-- The line of script as the relay has it. -/
def relayedJson (text : String) : Json := (Action.submit text).toJson.sorted

/-- The text by which watchers get the line of script. -/
def shownText (text : String) : String := (relayedJson text).compact

theorem relayed?_passedText (text : String) :
    Message.relayed? (passedText text) = some (.newAction (relayedJson text)) :=
  Message.relayed?_newAction (.submit text)

theorem passedAction?_passedText (text : String) :
    passedAction? (passedText text) = some (shownText text) := by
  unfold passedAction?
  rw [relayed?_passedText]
  rfl

/-- Watchers read the line of script that the presenter submitted. -/
theorem ofText?_shownText (text : String) :
    Action.ofText? (shownText text) = some (.submit text) :=
  Action.ofText?_sorted (.submit text)

/-! ## Requests and answers -/

theorem relayed?_startSharing :
    Message.relayed? (Message.startSharing : Message Action).text = some .startSharing := by
  have hread : Json.parse? (Message.startSharing : Message Action).text =
      some (.obj [("type", .str "START_SHARING")]) :=
    Json.parse?_compact (by decide) (by decide)
  unfold Message.relayed?
  rw [hread]
  rfl

theorem relayed?_startWatching (id : String) :
    Message.relayed? (Message.startWatching id : Message Action).text = some (.startWatching id) := by
  have hread : Json.parse? (Message.startWatching id : Message Action).text =
      some (.obj [("type", .str "START_WATCHING"), ("id", .str id)]) :=
    Json.parse?_compact (by simp [Message.toJson, Json.isPlain, Json.fieldsPlain])
      (by simp [Message.toJson, Json.depth, Json.fieldsDepth, Json.maxDepth])
  unfold Message.relayed?
  rw [hread]
  rfl

theorem assignedId?_assignedText (id : String) : assignedId? (assignedText id) = some id := by
  have hread : Json.parse? (assignedText id) = some (.obj [("id", .str id)]) :=
    Json.parse?_compact (by simp [assignedJson, Json.isPlain, Json.fieldsPlain])
      (by simp [assignedJson, Json.depth, Json.fieldsDepth, Json.maxDepth])
  unfold assignedId?
  rw [hread]
  rfl

theorem assignedText_inj {id id' : String} (h : assignedText id = assignedText id') : id = id' := by
  have hread := assignedId?_assignedText id
  rw [h, assignedId?_assignedText, Option.some.injEq] at hread
  exact hread.symm

/-! ## The law of passing on -/

/-- Every action that is not wrapped too often comes through: a client reads it in the message that
passes it on, and watchers read it in the text that the relay makes of that message, with all fields in
order. What is wrapped more often is read by nobody. -/
theorem relaying_is_transparent (a : Action) :
    (a.wraps + 2 ≤ Json.maxDepth →
      Message.ofText? (Message.newAction a).text = some (.newAction a) ∧
        Message.relayed? (Message.newAction a).text = some (.newAction a.toJson.sorted) ∧
        Action.ofText? a.toJson.sorted.compact = some a) ∧
    (Json.maxDepth < a.wraps + 2 →
      Message.ofText? (Message.newAction a).text = none ∧
        Message.relayed? (Message.newAction a).text = none) := by
  rw [Message.ofText?_newAction, Message.relayed?_newAction, Action.ofText?_sorted]
  constructor
  · intro h
    exact ⟨if_pos h, if_pos h, if_pos (by omega)⟩
  · intro h
    exact ⟨if_neg (by omega), if_neg (by omega)⟩

def wrapped : Nat → Action → Action
  | 0, action => action
  | n + 1, action => .share (wrapped n action)

/-- A link with quotes, a control character and letters from beyond the first plane, a hundred actions
deep. -/
def deepAction : Action := wrapped 100 (.tryStartWatching "\"\\\x01\n🐢é?watching=")

theorem deep_action_comes_through :
    deepAction.wraps + 2 ≤ Json.maxDepth ∧
      Message.ofText? (Message.newAction deepAction).text = some (.newAction deepAction) ∧
      Action.ofText? deepAction.toJson.sorted.compact = some deepAction ∧
      Json.maxDepth < (wrapped 26 deepAction).wraps + 2 ∧
      Message.relayed? (Message.newAction (wrapped 26 deepAction)).text = none := by
  have hdeep : deepAction.wraps + 2 ≤ Json.maxDepth := by decide
  have htooDeep : Json.maxDepth < (wrapped 26 deepAction).wraps + 2 := by decide
  obtain ⟨hread, -, hshown⟩ := (relaying_is_transparent deepAction).1 hdeep
  exact ⟨hdeep, hread, hshown, htooDeep, ((relaying_is_transparent _).2 htooDeep).2⟩

end TurtleScript
