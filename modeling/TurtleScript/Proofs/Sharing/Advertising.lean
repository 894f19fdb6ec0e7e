-- The link that a client shows. It is that of the session which the client
-- presents, from the moment on when the session has an id until the session
-- is given up; but one who begins a new session before the old one is over
-- is shown the old link until the new one is there.
import TurtleScript.Proofs.Sharing.Moving
import TurtleScript.Proofs.Sharing.Reporting

namespace TurtleScript

open SessionIds (counted)

/-- The id of a session that has a line. -/
def Presenting.established? (p : Presenting) : Option String :=
  match p.outlet with
  | .pending _ => none
  | .open _ => p.id

namespace Client

variable {c c' : Client} {event : Event} {action : Action} {t : Turn}

/-! ## Links shown -/

/-- The link that is shown. -/
def link? (c : Client) : Option String := c.store.environment.sharingUrl

/-- Whether the script is shown as shared, and the link that is shown. -/
def shown (c : Client) : Bool × Option String := (c.store.environment.isSharing, c.link?)

/-- The id of the session that is presented, once it is established. -/
def established? (c : Client) : Option String := c.presenting.bind Presenting.established?

/-- A link that is shown is that of an established session, and where there is none, nothing is
shown. -/
def LinkIsLive (c : Client) : Prop :=
  (∀ url, c.link? = some url → ∃ id, c.established? = some id ∧ url = c.config.shareUrl id) ∧
    (c.established? = none → c.store.environment.isSharing = false ∧ c.link? = none)

/-! ## What a turn does to the link -/

/-- The generation of the session that is presented, and its id once it is established. -/
def presents? (c : Client) : Option (Nat × Option String) :=
  c.presenting.map fun p => (p.generation, p.established?)

/-- What a turn does to the session that is presented and to the link: nothing, a new session takes
the place of an old one whose link stays, the session is given up and the link taken back, or the
session is established and its link shown. -/
inductive Shows (c : Client) (event : Event) (c' : Client) : Prop
  | stays (hopens : event.opens .presenter = false) (hpresents : c'.presents? = c.presents?)
      (hshown : c'.shown = c.shown) : Shows c event c'
  | begins (hopens : event.opens .presenter = true)
      (hpresents : c'.presents? = some (c'.generation, none)) (hshown : c'.shown = c.shown) :
      Shows c event c'
  | ends (hopens : event.opens .presenter = false) (hpresents : c'.presents? = none)
      (hshown : c'.shown = (false, none)) : Shows c event c'
  | establishes {g : Nat} {id : String} (hopens : event.opens .presenter = false)
      (hpresents : c'.presents? = some (g, some id))
      (hshown : c'.shown = (true, some (c'.config.shareUrl id))) : Shows c event c'

theorem Acts.config_eq (h : c.Acts action t) : t.client.config = c.config := by
  cases h <;> rfl

theorem Turns.config_eq (h : c.Turns event t) : t.client.config = c.config := by
  cases h with
  | acts h | repeats _ _ h => exact h.config_eq
  | _ => rfl

/-- Nothing else is shown unless something is reported. -/
theorem shown_eq (hstore : t.client.store = t.dispatched.foldl Store.dispatch c.store)
    (hnone : t.dispatched.filter Action.isReport = []) : t.client.shown = c.shown := by
  have henv : t.client.store.environment = c.store.environment := by
    rw [hstore, Store.environment_foldl, Environment.foldl_isReport, hnone]
    rfl
  simp [shown, link?, henv]

theorem Acts.shows (h : c.Acts action t) (hhonest : action.isReport = false) :
    c.Shows (.action action) t.client := by
  have hstays : (Event.action action).opens .presenter = false → t.client.presents? = c.presents? →
      t.dispatched.filter Action.isReport = [] → c.Shows (.action action) t.client :=
    fun hopens hpresents hnone => .stays hopens hpresents (shown_eq h.store_eq hnone)
  cases h with
  | plain h =>
    refine hstays ?_ rfl (by simp [staying, turn, hhonest])
    cases action <;> simp_all [takesPlainly, Event.opens]
  | unshared h hp | sent h hp ho =>
    rcases Action.passing?_cases h with ⟨text, rfl, -, rfl⟩ | ⟨rfl, rfl⟩ <;>
      exact hstays rfl rfl rfl
  | kept h hp ho =>
    rcases Action.passing?_cases h with ⟨text, rfl, -, rfl⟩ | ⟨rfl, rfl⟩ <;>
      exact hstays rfl (by simp [turn, presents?, hp, Presenting.established?, ho]) rfl
  | starts fresh => cases fresh <;> exact .begins rfl rfl rfl
  | stops hp => exact .ends rfl rfl rfl
  | follows h => exact hstays rfl rfl rfl
  | leaves hw => exact .stays rfl rfl rfl

theorem Turns.shows (h : c.Turns event t) (hhonest : event.isHonest = true) :
    c.Shows event t.client := by
  cases h with
  | acts h => exact h.shows (by simpa [Event.isHonest] using hhonest)
  | repeats hw hr h =>
    cases h.shows (Action.not_isReport_of_isReplayed hr) with
    | stays hopens hpresents hshown => exact .stays rfl hpresents hshown
    | begins hopens => simp [not_opens_of_isReplayed hr] at hopens
    | ends hopens hpresents hshown => exact .ends rfl hpresents hshown
    | establishes hopens hpresents hshown => exact .establishes rfl hpresents hshown
  | ignores h =>
    refine .stays ?_ rfl rfl
    cases event <;> first | rfl | simp [isDeafTo] at h
  | refuses id line h => exact .stays rfl rfl rfl
  | establishes id line hp => exact .establishes rfl rfl rfl
  | joins hw => exact .stays rfl rfl rfl
  | loses hp => exact .ends rfl rfl rfl
  | misses hw => exact .stays rfl rfl rfl

theorem established?_eq (c : Client) : c.established? = c.presents?.bind (·.2) := by
  unfold established? presents?
  cases c.presenting <;> rfl

end Client

/-! ## The link over time -/

/-- What a client has dealt with, and the client then: the link is that of the session once it is
established. Until then it is what was shown when the session was begun. -/
structure Advertises (ds : List Deed) (c : Client) : Prop where
  sharing : c.store.environment.isSharing = c.link?.isSome
  silent : c.presents? = none → c.link? = none
  pending : ∀ g, c.presents? = some (g, none) → ∃ d ∈ ds, d.event.opens .presenter = true ∧
    d.turn.client.generation = g ∧ c.link? = d.client.link?
  live : ∀ id, c.established? = some id → c.link? = some (c.config.shareUrl id)

namespace Advertises

variable {ds : List Deed} {c : Client} {d : Deed}

theorem linkIsLive_iff (h : Advertises ds c) :
    c.LinkIsLive ↔ (c.established? = none → c.link? = none) := by
  constructor
  · exact fun hlive hnone => (hlive.2 hnone).2
  · intro hnone
    refine ⟨fun url hurl => ?_, fun hend => ⟨by rw [h.sharing, hnone hend]; rfl, hnone hend⟩⟩
    cases hid : c.established? with
    | none => simp [hnone hid] at hurl
    | some id =>
      rw [h.live id hid, Option.some.injEq] at hurl
      exact ⟨id, rfl, hurl.symm⟩

theorem new (config : Config) (script : Timeline Script) :
    Advertises [] (.new config ⟨script, .idle⟩) where
  sharing := rfl
  silent := fun _ => rfl
  pending := by simp [Client.presents?, Client.new]
  live := by simp [Client.established?, Client.new]

theorem snoc (h : Advertises ds d.client) (hd : d.event.isHonest = true) :
    Advertises (ds ++ [d]) d.turn.client := by
  have hturn := d.client.turns_process d.event
  have hconfig : d.turn.client.config = d.client.config := hturn.config_eq
  have hshows : d.client.Shows d.event d.turn.client := hturn.shows hd
  have hestablished := d.turn.client.established?_eq
  obtain ⟨hsharing, hsilent, hpending, hlive⟩ := h
  cases hshows with
  | stays hopens hpresents hshown =>
    obtain ⟨hsame, hlink⟩ := Prod.mk.inj hshown
    have hid : d.turn.client.established? = d.client.established? := by
      rw [hestablished, hpresents, ← d.client.established?_eq]
    refine ⟨by rw [hsame, hlink, hsharing], ?_, ?_, ?_⟩
    · rw [hpresents, hlink]
      exact hsilent
    · intro g hg
      rw [hpresents] at hg
      obtain ⟨e, he, hbegun⟩ := hpending g hg
      exact ⟨e, List.mem_append_left _ he, hlink ▸ hbegun⟩
    · rw [hid, hlink, hconfig]
      exact hlive
  | begins hopens hpresents hshown =>
    obtain ⟨hsame, hlink⟩ := Prod.mk.inj hshown
    refine ⟨by rw [hsame, hlink, hsharing], by simp [hpresents], ?_,
      by simp [hestablished, hpresents]⟩
    intro g hg
    rw [hpresents, Option.some.injEq, Prod.mk.injEq] at hg
    exact ⟨d, by simp, hopens, hg.1, hlink⟩
  | ends hopens hpresents hshown =>
    obtain ⟨hsame, hlink⟩ := Prod.mk.inj hshown
    exact ⟨by rw [hsame, hlink]; rfl, fun _ => hlink, by simp [hpresents],
      by simp [hestablished, hpresents]⟩
  | @establishes g id hopens hpresents hshown =>
    obtain ⟨hsame, hlink⟩ := Prod.mk.inj hshown
    exact ⟨by rw [hsame, hlink]; rfl, by simp [hpresents], by simp [hpresents],
      by simp [hestablished, hpresents, hlink]⟩

/-- A live link stays so unless a session is begun while it is shown. -/
theorem linkIsLive_snoc_iff (h : Advertises ds d.client) (hd : d.event.isHonest = true)
    (hlive : d.client.LinkIsLive) :
    d.turn.client.LinkIsLive ↔ (d.event.opens .presenter = true → d.client.link? = none) := by
  have hshows : d.client.Shows d.event d.turn.client := (d.client.turns_process d.event).shows hd
  rw [(h.snoc hd).linkIsLive_iff, d.turn.client.established?_eq]
  rw [h.linkIsLive_iff, d.client.established?_eq] at hlive
  cases hshows with
  | stays hopens hpresents hshown =>
    rw [hpresents, (Prod.mk.inj hshown).2, hopens]
    exact ⟨fun _ h => absurd h (by decide), fun _ => hlive⟩
  | begins hopens hpresents hshown => simp [hopens, hpresents, (Prod.mk.inj hshown).2]
  | ends hopens hpresents hshown => simp [hopens, (Prod.mk.inj hshown).2]
  | establishes hopens hpresents hshown => simp [hopens, hpresents]

end Advertises

/-- Whatever happens to a client, in whatever order: it shows a link just when it says that it
shares, and none when it has no session. Once its session is established, the link is that of the
session; until then it is what was shown before the session was begun. So the link has been live all
the time just if no session was begun while a link was shown. -/
theorem link_is_live_unless_sharing_restarts (ids : SessionIds) (seats : List Seat) (hs : List Happening)
    (hhonest : ∀ d ∈ ((Chronicle.start ids seats).run hs).deeds, d.event.isHonest = true) :
    let c := (Chronicle.start ids seats).run hs
    ∀ s client, c.network.client? s = some client →
      client.store.environment.isSharing = client.link?.isSome ∧
      (client.presenting = none → client.link? = none) ∧
      (∀ id, client.established? = some id → client.link? = some (client.config.shareUrl id)) ∧
      (∀ g, client.presents? = some (g, none) → ∃ d ∈ c.deedsOf s,
        d.event.opens .presenter = true ∧ d.turn.client.generation = g ∧
          client.link? = d.client.link?) ∧
      ((client.LinkIsLive ∧ ∀ d ∈ c.deedsOf s, d.client.LinkIsLive) ↔
        ∀ d ∈ c.deedsOf s, d.event.opens .presenter = true → d.client.link? = none) := by
  intro c s client hclient
  have hhistory := Chronicle.history_run (R := fun ds client =>
    (∀ d ∈ ds, d.event.isHonest = true) → Advertises ds client ∧
      ((client.LinkIsLive ∧ ∀ d ∈ ds, d.client.LinkIsLive) ↔
        ∀ d ∈ ds, d.event.opens .presenter = true → d.client.link? = none))
    (fun config script _ => ?_) (fun ds d h hds => ?_) hclient
  · obtain ⟨hadvertises, hiff⟩ := hhistory fun d hd => hhonest d (List.mem_of_mem_filter hd)
    refine ⟨hadvertises.sharing, fun hnone => hadvertises.silent ?_, hadvertises.live,
      hadvertises.pending, hiff⟩
    simp [Client.presents?, hnone]
  · have hnew := Advertises.new config script
    have hlive := hnew.linkIsLive_iff.mpr fun _ => rfl
    exact ⟨hnew, by simp [hlive]⟩
  · obtain ⟨hadvertises, hiff⟩ := h fun e he => hds e (List.mem_append_left _ he)
    have hd := hds d (by simp)
    refine ⟨hadvertises.snoc hd, ?_⟩
    -- The client after the last deed is live if the one before it is and nothing is left behind.
    simp only [List.forall_mem_append, List.forall_mem_singleton]
    rw [← hiff]
    constructor
    · rintro ⟨hlater, hbefore, hnow⟩
      exact ⟨⟨hnow, hbefore⟩, (hadvertises.linkIsLive_snoc_iff hd hnow).mp hlater⟩
    · rintro ⟨⟨hnow, hbefore⟩, hquiet⟩
      exact ⟨(hadvertises.linkIsLive_snoc_iff hd hnow).mpr hquiet, hbefore, hnow⟩

/-- A client whose user shares, and begins to share anew once the first link is there. -/
def reshared : Chronicle :=
  (Chronicle.start counted [⟨.default, .start .empty, .relay⟩]).run
    [.act 0 (.startSharing true), .work 0, .attend 0, .work 0, .process 0,
      .act 0 (.startSharing false)]

theorem old_link_is_shown :
    ∃ client, reshared.network.client? 0 = some client ∧ client.presents? = some (2, none) ∧
      client.link? = some (Config.default.shareUrl counted.first) ∧
      ∃ d ∈ reshared.deedsOf 0, d.event.opens .presenter = true ∧
        d.turn.client.generation = 2 ∧ client.link? = d.client.link? := by
  have hlaw := link_is_live_unless_sharing_restarts counted [⟨.default, .start .empty, .relay⟩]
    [.act 0 (.startSharing true), .work 0, .attend 0, .work 0, .process 0,
      .act 0 (.startSharing false)] (by decide +kernel)
  have hsome : (reshared.network.client? 0).isSome = true := by decide +kernel
  obtain ⟨client, hclient⟩ := Option.isSome_iff_exists.mp hsome
  have hpending : (reshared.network.client? 0).bind Client.presents? = some (2, none) := by
    decide +kernel
  have hlink : (reshared.network.client? 0).bind Client.link? =
      some (Config.default.shareUrl counted.first) := by decide +kernel
  rw [hclient] at hpending hlink
  obtain ⟨-, -, -, hbegun, -⟩ := hlaw 0 client hclient
  exact ⟨client, hclient, hpending, hlink, hbegun 2 hpending⟩

end TurtleScript
