-- What a client passes on of what goes through its store. It sends no line of
-- script, and lets none wait, that it does not pass on at that time; and it
-- passes on what its user submits and what it repeats, each once.
import TurtleScript.Proofs.Sharing.Turning

namespace TurtleScript

/-! ## What a client passes on -/

/-- The message of an effect. -/
def Effect.message? : Effect → Option (Message Action)
  | .send _ message => some message
  | _ => none

/-- The messages that a turn puts on any line. -/
def Turn.sent (t : Turn) : List (Message Action) := t.effects.filterMap Effect.message?

/-- The messages of a client that wait for a line. -/
def Client.kept (c : Client) : List (Message Action) := c.presenting.elim [] (·.outlet.kept)

namespace Client

variable {c : Client} {event : Event} {action : Action} {t : Turn}

theorem sent_closing (p : Presenting) : (closing p).filterMap Effect.message? = [] := by
  unfold closing
  cases p.outlet <;> rfl

theorem sent_closings (c : Client) : c.closings.filterMap Effect.message? = [] := by
  unfold closings
  cases c.presenting with
  | none => rfl
  | some p => exact sent_closing p

theorem sent_cancels (c : Client) : c.cancels.filterMap Effect.message? = [] := by
  unfold cancels
  cases c.watching <;> rfl

theorem count_passed {passed : Action} {actions : List Action}
    (h : action.passing? = some (passed, actions)) (inner : Action) :
    [Message.newAction passed].count (.newAction inner) ≤ actions.count (.share inner) := by
  have hmem : Action.share passed ∈ actions := by
    rcases Action.passing?_cases h with ⟨text, rfl, rfl, rfl⟩ | ⟨rfl, rfl⟩
    · exact List.mem_cons_self
    · exact List.mem_cons_self
  by_cases hsame : passed = inner
  · subst hsame
    have hpos : 0 < actions.count (.share passed) := List.count_pos_iff.mpr hmem
    simpa using hpos
  · simp [hsame]

/-- A turn passes nothing on if it sends nothing and leaves no more messages waiting than before. -/
theorem count_sent_of_none (inner : Action) (hsent : t.sent = [])
    (hkept : t.client.kept.Sublist c.kept) (n : Nat) :
    t.sent.count (.newAction inner) + t.client.kept.count (.newAction inner) ≤
      c.kept.count (.newAction inner) + n := by
  have hle : t.client.kept.count (.newAction inner) ≤ c.kept.count (.newAction inner) :=
    hkept.count_le _
  rw [hsent, List.count_nil]
  omega

theorem Acts.count_sent (h : c.Acts action t) (hfresh : action ≠ .startSharing false)
    (inner : Action) :
    t.sent.count (.newAction inner) + t.client.kept.count (.newAction inner) ≤
      c.kept.count (.newAction inner) + t.dispatched.count (.share inner) := by
  cases h with
  | plain h => exact count_sent_of_none inner rfl (List.Sublist.refl _) _
  | unshared h hp => exact count_sent_of_none inner rfl (List.Sublist.refl _) _
  | @kept _ passed actions p messages h hp ho =>
    have hbefore : c.kept = messages := by simp [Client.kept, hp, Outlet.kept, ho]
    have hpassed := count_passed h inner
    have hsent : ([] : List (Message Action)).count (Message.newAction inner) +
        (messages ++ [Message.newAction passed]).count (Message.newAction inner) ≤
          messages.count (Message.newAction inner) + actions.count (.share inner) := by
      rw [List.count_nil, List.count_append]
      omega
    rw [hbefore]
    exact hsent
  | @sent _ passed actions p line h hp ho =>
    have hpassed := count_passed h inner
    have hsent : [Message.newAction passed].count (Message.newAction inner) +
        c.kept.count (Message.newAction inner) ≤
          c.kept.count (Message.newAction inner) + actions.count (.share inner) := by omega
    exact hsent
  | starts fresh =>
    have htrue : fresh = true := by
      cases fresh with
      | true => rfl
      | false => exact absurd rfl hfresh
    subst htrue
    refine count_sent_of_none inner ?_ ?_ _
    · unfold Turn.sent turn
      rw [List.filterMap_append, sent_closings]
      rfl
    · exact List.nil_sublist c.kept
  | follows h =>
    refine count_sent_of_none inner ?_ (List.Sublist.refl _) _
    unfold Turn.sent turn
    rw [List.filterMap_append, sent_cancels]
    rfl
  | @stops p hp =>
    refine count_sent_of_none inner ?_ ?_ _
    · exact sent_closing p
    · exact List.nil_sublist c.kept
  | leaves hw => exact count_sent_of_none inner rfl (List.Sublist.refl _) _

/-- What a client sends, or lets wait, was there before or it passes it on in this turn. -/
theorem Turns.count_sent (h : c.Turns event t) (hfresh : event ≠ .action (.startSharing false))
    (inner : Action) :
    t.sent.count (.newAction inner) + t.client.kept.count (.newAction inner) ≤
      c.kept.count (.newAction inner) + t.dispatched.count (.share inner) := by
  cases h with
  | acts h => exact h.count_sent (fun heq => hfresh (heq ▸ rfl)) inner
  | repeats hw hr h =>
    refine h.count_sent (fun heq => ?_) inner
    rw [heq] at hr
    cases hr
  | @establishes p id line hp =>
    have hbefore : c.kept = p.outlet.kept := by simp [kept, hp]
    have hsent : (p.outlet.kept.map (Effect.send line)).filterMap Effect.message? =
        p.outlet.kept := by
      rw [List.filterMap_map]
      exact List.filterMap_some
    unfold Turn.sent turn
    rw [hsent, hbefore]
    exact Nat.le_add_right _ _
  | @loses p hp =>
    refine count_sent_of_none inner ?_ ?_ _
    · exact sent_closing p
    · exact List.nil_sublist c.kept
  | _ => exact count_sent_of_none inner rfl (List.Sublist.refl _) _

/-! ## What goes through a store -/

theorem Acts.count_dispatched (h : c.Acts action t) {text : String} {a : Action}
    (ha : a = .submit text ∨ a = .share (.submit text)) :
    t.dispatched.count a ≤
      if action = .submit text ∨ action = .share (.submit text) then 1 else 0 := by
  have hpassing : ∀ {inner : Action} {actions : List Action},
      action.passing? = some (inner, actions) → actions.count a ≤
        if action = .submit text ∨ action = .share (.submit text) then 1 else 0 := by
    intro inner actions hpasses
    rcases Action.passing?_cases hpasses with ⟨line, rfl, rfl, rfl⟩ | ⟨rfl, rfl⟩
    · by_cases hline : line = text
      · rcases ha with rfl | rfl <;> simp [hline]
      · rcases ha with rfl | rfl <;> simp [hline]
    · rcases ha with rfl | rfl
      · simp
      · by_cases hinner : inner = .submit text <;> simp [hinner]
  cases h with
  | plain h =>
    by_cases hsame : action = a
    · rw [if_pos (hsame ▸ ha)]
      exact List.count_le_length
    · have hnone : [action].count a = 0 := List.count_eq_zero.mpr (by simpa using Ne.symm hsame)
      exact Nat.le_trans (Nat.le_of_eq hnone) (Nat.zero_le _)
  | unshared h hp | kept h hp ho | sent h hp ho => exact hpassing h
  | starts fresh => cases fresh <;> rcases ha with rfl | rfl <;> simp [turn]
  | _ => rcases ha with rfl | rfl <;> simp [turn]

end Client

/-- A watcher is told that its presenter has submitted this line of script. -/
def Event.repeats (text : String) : Event → Bool
  | .remote _ (.submit line) => line = text
  | _ => false

/-- A user submits this line of script, or passes it on by hand. -/
def Event.enters (text : String) : Event → Bool
  | .action (.submit line) => line = text
  | .action (.share (.submit line)) => line = text
  | _ => false

/-- A line of script goes through a store, or is passed on, once for each time that it is submitted
or repeated. -/
theorem Client.Turns.count_dispatched {c : Client} {event : Event} {t : Turn}
    (h : c.Turns event t) {text : String} {a : Action}
    (ha : a = .submit text ∨ a = .share (.submit text)) :
    t.dispatched.count a ≤
      if (event.enters text || event.repeats text) = true then 1 else 0 := by
  cases h with
  | @acts action t h =>
    refine Nat.le_trans (h.count_dispatched ha) ?_
    split
    · rename_i heq
      rcases heq with rfl | rfl <;> simp [Event.enters]
    · exact Nat.zero_le _
  | @repeats action t g hw hr h =>
    refine Nat.le_trans (h.count_dispatched ha) ?_
    split
    · rename_i heq
      rcases heq with rfl | rfl
      · simp [Event.repeats]
      · cases hr
    · exact Nat.zero_le _
  | _ => rcases ha with rfl | rfl <;> simp [Client.staying, Client.turn]

end TurtleScript
