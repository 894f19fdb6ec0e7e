-- From one point of a run to a later one: what clients have done in between,
-- what they keep, and what was to come at any moment.
import TurtleScript.Proofs.Sharing.Outliving

namespace TurtleScript

/-- Those that are left out of a list do not matter where they have nothing. -/
theorem flatMap_filter_of_silent {α β : Type} {p : α → Bool} {f : α → List β} {xs : List α}
    (h : ∀ x ∈ xs, p x = false → f x = []) : (xs.filter p).flatMap f = xs.flatMap f := by
  induction xs with
  | nil => rfl
  | cons x xs ih =>
    have hrest := ih fun y hy => h y (List.mem_cons_of_mem _ hy)
    by_cases hx : p x = true
    · rw [List.filter_cons_of_pos hx, List.flatMap_cons, List.flatMap_cons, hrest]
    · rw [List.filter_cons_of_neg hx, List.flatMap_cons, h x List.mem_cons_self (by simpa using hx),
        List.nil_append, hrest]

namespace Chronicle

variable {a c c' : Chronicle} {s g : Nat}

/-! ## Deeds of a client -/

theorem mem_deedsOf {d : Deed} : d ∈ c.deedsOf s ↔ d ∈ c.deeds ∧ d.station = s := by
  simp [deedsOf]

/-- All news that a client has dealt with are news. -/
theorem mem_news_of_deed {d : Deed} (h : d ∈ c.deedsOf s) (hnews : d.event.isNews = true) :
    d.event ∈ c.news s := by
  unfold news
  exact List.mem_filter.mpr ⟨List.mem_append_left _ (List.mem_map_of_mem h), hnews⟩

theorem exists_deeds_run (c : Chronicle) (hs : List Happening) :
    ∃ more, (c.run hs).deeds = c.deeds ++ more :=
  run_induction (P := fun c' => ∃ more, c'.deeds = c.deeds ++ more) ⟨[], by simp⟩
    (fun c' h ⟨more, hmore⟩ =>
      ⟨more ++ (c'.network.deed? h).toList, by simp [step, hmore]⟩) hs

theorem deedsOf_append {more : List Deed} (h : c'.deeds = c.deeds ++ more) (s : Nat) :
    c'.deedsOf s = c.deedsOf s ++ more.filter (·.station = s) := by
  unfold deedsOf
  rw [h, List.filter_append]

/-! ## What clients keep -/

/-- What every turn of a client keeps is kept from the beginning of a run, or from any deed in it,
to its end. -/
theorem keeps_run {Q : Client → Prop}
    (hQ : ∀ client event, Q client → Q (client.process event).client) {hs : List Happening}
    {more : List Deed} (hmore : (c.run hs).deeds = c.deeds ++ more) {client : Client}
    (hclient : c.network.client? s = some client) :
    ∃ last, (c.run hs).network.client? s = some last ∧
      (Q client → Q last ∧ ∀ d ∈ more, d.station = s → Q d.client) ∧
      ∀ d ∈ more, d.station = s → Q d.turn.client → Q last := by
  let Keeps : List Deed → Client → Prop := fun ds now =>
    (Q client → Q now ∧ ∀ d ∈ ds, Q d.client) ∧ ∀ d ∈ ds, Q d.turn.client → Q now
  have hturn : ∀ ds d, Keeps ds d.client → Keeps (ds ++ [d]) d.turn.client := by
    rintro ds d ⟨hfirst, hlater⟩
    refine ⟨fun hclient => ?_, fun e he hturn => ?_⟩
    · obtain ⟨hnow, hdone⟩ := hfirst hclient
      refine ⟨hQ _ _ hnow, fun e he => ?_⟩
      rcases List.mem_append.mp he with he | he
      · exact hdone e he
      · rw [List.mem_singleton.mp he]
        exact hnow
    · rcases List.mem_append.mp he with he | he
      · exact hQ _ _ (hlater e he hturn)
      · rw [List.mem_singleton.mp he] at hturn
        exact hturn
  obtain ⟨last, hlast, hfirst, hlater⟩ :=
    history_since hturn hclient ⟨fun h => ⟨h, by simp⟩, by simp⟩ hmore
  refine ⟨last, hlast, fun h => ⟨(hfirst h).1, fun d hd hstation => ?_⟩, fun d hd hstation => ?_⟩
  · exact (hfirst h).2 d (List.mem_filter.mpr ⟨hd, by simpa using hstation⟩)
  · exact hlater d (List.mem_filter.mpr ⟨hd, by simpa using hstation⟩)

/-! ## Moments of a run -/

theorem step_of_deed {h : Happening} {d : Deed} (hd : c.network.deed? h = some d) :
    (c.step h).deeds = c.deeds ++ [d] ∧ c.network.client? d.station = some d.client ∧
      (c.step h).network.client? d.station = some d.turn.client := by
  have hsnoc : (c.step h).deeds = c.deeds ++ [d] := by simp [Chronicle.step, hd]
  refine ⟨hsnoc, ?_⟩
  cases c.moves_step h with
  | works t j phase news hj hworks hdeeds => simp [hsnoc] at hdeeds
  | rests hdeeds => simp [hsnoc] at hdeeds
  | turns e hclient hevent hdeeds hclients =>
    rw [hsnoc, List.append_cancel_left_eq, List.cons.injEq] at hdeeds
    rw [hdeeds.1]
    exact ⟨hclient, by rw [hclients, if_pos rfl]⟩

/-- Just before a client dealt with something in a run, the rest of the run was to come. -/
theorem exists_moment {hs : List Happening} {xs ys : List Deed} {d : Deed}
    (h : (a.run hs).deeds = a.deeds ++ (xs ++ d :: ys)) :
    ∃ first now rest, hs = first ++ now :: rest ∧ (a.run first).deeds = a.deeds ++ xs ∧
      (a.run first).network.deed? now = some d := by
  induction hs generalizing a xs with
  | nil => simp [run] at h
  | cons happening hs ih =>
    have hrun : a.run (happening :: hs) = (a.step happening).run hs := rfl
    obtain ⟨more, hmore⟩ := (a.step happening).exists_deeds_run hs
    cases hdeed : a.network.deed? happening with
    | none =>
      have hsame : (a.step happening).deeds = a.deeds := by simp [step, hdeed]
      obtain ⟨first, now, rest, rfl, hdeeds, hnow⟩ := ih (hsame ▸ hrun ▸ h)
      exact ⟨happening :: first, now, rest, rfl, hsame ▸ hdeeds, hnow⟩
    | some e =>
      have hsnoc : (a.step happening).deeds = a.deeds ++ [e] := by simp [step, hdeed]
      rw [hrun, hmore, hsnoc, List.append_assoc, List.append_cancel_left_eq] at h
      cases xs with
      | nil =>
        rw [List.nil_append, List.singleton_append, List.cons.injEq] at h
        exact ⟨[], happening, hs, rfl, by simp [run], h.1 ▸ hdeed⟩
      | cons x xs =>
        rw [List.cons_append, List.nil_append, List.cons_append, List.cons.injEq] at h
        obtain ⟨rfl, h⟩ := h
        rw [h] at hmore
        obtain ⟨first, now, rest, rfl, hdeeds, hnow⟩ := ih hmore
        refine ⟨happening :: first, now, rest, rfl, ?_, hnow⟩
        rw [show a.run (happening :: first) = (a.step happening).run first from rfl, hdeeds, hsnoc]
        simp

/-- What the client of a station has dealt with from one point of a run to a later one. -/
def since (a c : Chronicle) (s : Nat) : List Deed := (c.deedsOf s).drop (a.deedsOf s).length

theorem since_eq {more : List Deed} (h : c.deeds = a.deeds ++ more) (s : Nat) :
    a.since c s = more.filter (·.station = s) := by
  unfold since
  rw [deedsOf_append h]
  exact List.drop_left

/-! ## Only once -/

/-- The beginning of a session is not heard of twice. -/
theorem Hopeful.not_twice (hc : c.Hopeful) {client : Client}
    (hclient : c.network.client? s = some client) {before after : List Deed} {d : Deed}
    (hdeeds : c.deedsOf s = before ++ after) (hd : d ∈ after) (hstarts : d.event.starts g = true) :
    ∀ e ∈ before, e.event.starts g = false := by
  intro e he
  by_contra htwice
  have hpos : 0 < before.countP (·.event.starts g) :=
    List.countP_pos_iff.mpr ⟨e, he, by simpa using htwice⟩
  have hlater : 0 < after.countP (·.event.starts g) := List.countP_pos_iff.mpr ⟨d, hd, hstarts⟩
  have hle := c.countP_deedsOf_le s fun _ => isNews_of_starts (g := g)
  have hone := hc s client g hclient
  rw [hdeeds, List.countP_append] at hle
  omega

/-- The line of a session is heard of only once. -/
theorem Hopeful.line_inj (hc : c.Hopeful) {client : Client}
    (hclient : c.network.client? s = some client) {d e : Deed} {id id' : String} {line line' : Nat}
    (hd : d ∈ c.deedsOf s) (he : e ∈ c.deedsOf s) (hline : d.event = .presenterReady g id line)
    (hline' : e.event = .presenterReady g id' line') : line = line' := by
  have hone : ((c.deedsOf s).filter (·.event.starts g)).length ≤ 1 := by
    have hle := c.countP_deedsOf_le s fun _ => isNews_of_starts (g := g)
    have hcount := hc s client g hclient
    rw [List.countP_eq_length_filter] at hle
    omega
  have hd' : d ∈ (c.deedsOf s).filter (·.event.starts g) :=
    List.mem_filter.mpr ⟨hd, by simp [hline, Event.starts]⟩
  have he' : e ∈ (c.deedsOf s).filter (·.event.starts g) :=
    List.mem_filter.mpr ⟨he, by simp [hline', Event.starts]⟩
  rcases hlist : (c.deedsOf s).filter (·.event.starts g) with _ | ⟨only, _ | ⟨_, _⟩⟩
  · simp [hlist] at hd'
  · rw [hlist, List.mem_singleton] at hd' he'
    rw [hd', ← he', hline', Event.presenterReady.injEq] at hline
    exact hline.2.2.symm
  · simp [hlist] at hone

end Chronicle

end TurtleScript
