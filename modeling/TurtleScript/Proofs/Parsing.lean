-- The parser reads the grammar. It takes one token at a time and keeps the
-- open blocks on a stack; what it has at the end is the tree of the one
-- derivation that there is, and without a derivation it refuses a token or
-- still waits for one.
import TurtleScript.Proofs.Advancing

namespace TurtleScript.Script

/-! ## Derived tokens are accepted -/

theorem settleAll_opening {s : Script} {body : List Instruction}
    (h : ∀ i ∈ body, i.isComplete = true) (i : Instruction) (param : Param)
    (done : Array Instruction) :
    (s.opening ⟨i, param, done⟩).settleAll body = s.opening ⟨i, param, done ++ body.toArray⟩ := by
  induction body generalizing done with
  | nil => simp [settleAll]
  | cons j body ih =>
    have hj : j.isComplete = true := h j List.mem_cons_self
    have hstep : (s.opening ⟨i, param, done⟩).settle j = s.opening ⟨i, param, done.push j⟩ := by
      unfold settle opening
      rw [if_neg (by simp [hj])]
    have hrest := ih (fun k hk => h k (List.mem_cons_of_mem _ hk)) (done.push j)
    unfold settleAll at hrest ⊢
    rw [List.foldl_cons, hstep, hrest]
    simp

theorem settleAll_outside {s : Script} {body : List Instruction}
    (h : ∀ i ∈ body, i.isComplete = true) (ho : s.openBlocks = []) :
    (s.settleAll body).instructions.toList = s.instructions.toList ++ body ∧
      (s.settleAll body).openBlocks = [] ∧ (s.settleAll body).current = s.current ∧
      (s.settleAll body).nextId = s.nextId := by
  induction body generalizing s with
  | nil => exact ⟨by simp [settleAll], ho, rfl, rfl⟩
  | cons i body ih =>
    have hi : i.isComplete = true := h i List.mem_cons_self
    have hstep : s.settle i =
        { s with drawing := i.perform s.drawing, instructions := s.instructions.push i } := by
      unfold settle
      rw [if_neg (by simp [hi]), ho]
    have hopen : (s.settle i).openBlocks = [] := (openBlocks_settle_eq_nil_iff hi).mpr ho
    obtain ⟨hinstructions, hblocks, hcurrent, hnext⟩ :=
      ih (fun j hj => h j (List.mem_cons_of_mem _ hj)) hopen
    have hfold : s.settleAll (i :: body) = (s.settle i).settleAll body := rfl
    rw [hfold]
    refine ⟨?_, hblocks, ?_, ?_⟩
    · rw [hinstructions, hstep]
      simp
    · rw [hcurrent, current_settle hi]
    · rw [hnext, hstep]

/-- A block that is filled and closed is bound to its parameter. -/
theorem closes_block {s : Script} {id m : Nat} {command : Command} {done : List Arg} {param : Param}
    {params : List Param} {body : List Instruction} {right : Token} {rest : List Token}
    (hc : s.current = none) (hp : command.params = done.map Arg.param ++ param :: params)
    (hbody : ∀ i ∈ body, i.isComplete = true) (hright : right.kind = .bracketClose) :
    (((s.opening ⟨⟨id, command, done, false⟩, param, #[]⟩).upTo m).settleAll body).advanceAll?
        (right :: rest) =
      ((s.upTo m).settle ⟨id, command, done ++ [.block param body], params.isEmpty⟩).advanceAll?
        rest := by
  have hcurrent : (s.upTo m).current = none := hc
  have hupTo : (s.opening ⟨⟨id, command, done, false⟩, param, #[]⟩).upTo m =
      (s.upTo m).opening ⟨⟨id, command, done, false⟩, param, #[]⟩ := rfl
  rw [hupTo, settleAll_opening hbody, advanceAll?_cons, advance?_close hcurrent hright, bind_eq hp rfl]
  simp

mutual
/-- The tokens of a script settle its statements. -/
theorem advanceAll?_script {n m : Nat} {ts : List Token} {body : List Instruction} :
    DerivesScript n ts body m → ∀ (s : Script) (rest : List Token), s.current = none → s.nextId = n →
      (∀ i ∈ body, i.isComplete = true) ∧
      s.advanceAll? (ts ++ rest) = ((s.upTo m).settleAll body).advanceAll? rest
  | .nil n => by
    intro s rest hc hn
    subst hn
    exact ⟨by simp, rfl⟩
  | @DerivesScript.cons n m k ts us i body hstatement hbody => by
    intro s rest hc hn
    obtain ⟨hi, hfirst⟩ := advanceAll?_statement hstatement s (us ++ rest) hc hn
    have hcurrent : ((s.upTo m).settle i).current = none := by
      rw [current_settle hi]
      exact hc
    have hnext : ((s.upTo m).settle i).nextId = m := nextId_settle _ _
    obtain ⟨hcomplete, hrest⟩ := advanceAll?_script hbody ((s.upTo m).settle i) rest hcurrent hnext
    refine ⟨?_, ?_⟩
    · intro j hj
      rcases List.mem_cons.mp hj with rfl | hj
      · exact hi
      · exact hcomplete j hj
    · rw [List.append_assoc, hfirst, hrest, upTo_settle]
      rfl

/-- The tokens of a statement settle its call. -/
theorem advanceAll?_statement {n m : Nat} {ts : List Token} {i : Instruction} :
    DerivesStatement n ts i m → ∀ (s : Script) (rest : List Token), s.current = none → s.nextId = n →
      i.isComplete = true ∧
      s.advanceAll? (ts ++ rest) = ((s.upTo m).settle i).advanceAll? rest
  | .call ht hl hargs => by
    intro s rest hc hn
    subst hn
    have hrest := advanceAll?_args hargs (s.upTo (s.nextId + 1)) s.nextId _ [] rest hc rfl rfl
    refine ⟨rfl, ?_⟩
    rw [List.cons_append, advanceAll?_cons, advance?_command hc ht hl]
    exact hrest

/-- The tokens of arguments complete a call that waits for them. -/
theorem advanceAll?_args {params : List Param} {n m : Nat} {ts : List Token} {args : List Arg} :
    DerivesArgs params n ts args m → ∀ (s : Script) (id : Nat) (command : Command) (done : List Arg)
      (rest : List Token), s.current = none → s.nextId = n →
      command.params = done.map Arg.param ++ params →
      (s.settle ⟨id, command, done, params.isEmpty⟩).advanceAll? (ts ++ rest) =
        ((s.upTo m).settle ⟨id, command, done ++ args, true⟩).advanceAll? rest
  | .nil n => by
    intro s id command done rest hc hn hp
    subst hn
    rw [List.append_nil]
    rfl
  | @DerivesArgs.number n m param params t ts x args ht hx hargs => by
    intro s id command done rest hc hn hp
    have hnext : (⟨id, command, done, false⟩ : Instruction).nextParam? = some param :=
      nextParam?_eq hp
    have hfeed := feed_number hnext ht hx
    have hparams : command.params = (done ++ [Arg.number param x]).map Arg.param ++ params := by
      rw [hp]
      simp [Arg.param]
    have hrest := advanceAll?_args hargs s id command (done ++ [.number param x]) rest hc hn hparams
    rw [List.append_assoc] at hrest
    rw [List.cons_append, advanceAll?_cons, List.isEmpty_cons, advance?_waiting hc rfl, hfeed,
      bind_eq hp rfl]
    exact hrest
  | @DerivesArgs.block n m k param params left right ts us body args hk hleft hbody hright hargs => by
    intro s id command done rest hc hn hp
    have hnext : (⟨id, command, done, false⟩ : Instruction).nextParam? = some param :=
      nextParam?_eq hp
    have hfeed := feed_open hnext hk hleft
    have hparams : command.params = (done ++ [Arg.block param body]).map Arg.param ++ params := by
      rw [hp]
      simp [Arg.param]
    have hrest := advanceAll?_args hargs (s.upTo m) id command (done ++ [.block param body]) rest hc rfl
      hparams
    rw [List.append_assoc] at hrest
    obtain ⟨hcomplete, hinside⟩ := advanceAll?_script hbody
      (s.opening ⟨⟨id, command, done, false⟩, param, #[]⟩) (right :: (us ++ rest)) hc hn
    have hshape : left :: (ts ++ right :: us) ++ rest = left :: (ts ++ right :: (us ++ rest)) := by
      simp
    rw [hshape, advanceAll?_cons, List.isEmpty_cons, advance?_waiting hc rfl, hfeed]
    simp only [Option.bind_some]
    rw [hinside, closes_block hc hp hcomplete hright]
    exact hrest
end

/-! ## Accepted tokens are derived -/

/-- How the tokens after a script in it go on: with the end of the block it stands in, if it stands
in one. -/
def GoesOn (s : Script) (rest : List Token) : Prop :=
  (s.openBlocks = [] ∧ rest = []) ∨
    (s.openBlocks ≠ [] ∧ ∃ right us, rest = right :: us ∧ right.kind = .bracketClose)

mutual
/-- Tokens that are read to the end begin with a script. -/
theorem derivesScript_of_advanceAll? (ts : List Token) (s r : Script) (hc : s.current = none)
    (hsolid : ∀ t ∈ ts, t.isBlank = false) (h : s.advanceAll? ts = some r)
    (hr : r.isIncomplete = false) :
    ∃ used rest body m, ts = used ++ rest ∧ DerivesScript s.nextId used body m ∧ s.GoesOn rest := by
  match ts, hsolid, h with
  | [], hsolid, h =>
    have hsr : s = r := by simpa using h
    have hblocks : s.openBlocks = [] := by
      rw [← hsr] at hr
      exact (isIncomplete_eq_false_iff.mp hr).2
    exact ⟨[], [], [], s.nextId, rfl, .nil _, Or.inl ⟨hblocks, rfl⟩⟩
  | t :: ts, hsolid, h =>
    have hblank : t.isBlank = false := hsolid t List.mem_cons_self
    have hsolid' : ∀ u ∈ ts, u.isBlank = false := fun u hu => hsolid u (List.mem_cons_of_mem _ hu)
    have hfirst := h
    rw [advanceAll?_cons, Option.bind_eq_some_iff] at hfirst
    obtain ⟨next, hnext, hrest⟩ := hfirst
    rcases outside_of_advance? hc hblank hnext with ⟨ht, command, hl⟩ | ⟨hk, hopen⟩
    · rw [advance?_command hc ht hl, Option.some.injEq] at hnext
      rw [← hnext] at hrest
      obtain ⟨used, after, args, m, htokens, hargs⟩ := derivesArgs_of_advanceAll? ts
        (s.upTo (s.nextId + 1)) r s.nextId command [] command.params hc hsolid' hrest hr rfl
      have hcall : DerivesStatement s.nextId (t :: used) ⟨s.nextId, command, args, true⟩ m :=
        .call ht hl hargs
      obtain ⟨hi, hdone⟩ := advanceAll?_statement hcall s after hc rfl
      rw [htokens, ← List.cons_append, hdone] at h
      have hlater : ∀ u ∈ after, u.isBlank = false :=
        fun u hu => hsolid' u (htokens ▸ List.mem_append_right used hu)
      have hcurrent : ((s.upTo m).settle ⟨s.nextId, command, args, true⟩).current = none := by
        rw [current_settle hi]
        exact hc
      obtain ⟨more, rest, body, k, hafter, hbody, hgoes⟩ := derivesScript_of_advanceAll? after _ r
        hcurrent hlater h hr
      rw [nextId_settle] at hbody
      refine ⟨t :: used ++ more, rest, _ :: body, k, ?_, .cons hcall hbody, ?_⟩
      · rw [htokens, hafter, List.append_assoc]
        rfl
      · unfold GoesOn at hgoes
        rw [Ne, openBlocks_settle_eq_nil_iff hi] at hgoes
        exact hgoes
    · exact ⟨[], t :: ts, [], s.nextId, rfl, .nil _, Or.inr ⟨hopen, t, ts, rfl, hk⟩⟩
termination_by ts.length
decreasing_by
  all_goals
    try rw [htokens]
    simp only [List.length_cons, List.length_append]
    omega

/-- Tokens that are read to the end begin with the arguments that a call waits for. -/
theorem derivesArgs_of_advanceAll? (ts : List Token) (s r : Script) (id : Nat) (command : Command)
    (done : List Arg) (params : List Param) (hc : s.current = none)
    (hsolid : ∀ t ∈ ts, t.isBlank = false)
    (h : (s.settle ⟨id, command, done, params.isEmpty⟩).advanceAll? ts = some r)
    (hr : r.isIncomplete = false) (hp : command.params = done.map Arg.param ++ params) :
    ∃ used rest args m, ts = used ++ rest ∧ DerivesArgs params s.nextId used args m := by
  have hi : (⟨id, command, done, false⟩ : Instruction).isComplete = false := rfl
  match params, ts, hsolid, h, hp with
  | [], ts, _, _, _ => exact ⟨[], ts, [], s.nextId, rfl, .nil _⟩
  | param :: params, [], _, h, _ =>
    rw [List.isEmpty_cons, advanceAll?_nil, Option.some.injEq] at h
    rw [← h, settle_waiting hi] at hr
    simp [isIncomplete] at hr
  | param :: params, t :: ts, hsolid, h, hp =>
    have hblank : t.isBlank = false := hsolid t List.mem_cons_self
    have hsolid' : ∀ u ∈ ts, u.isBlank = false := fun u hu => hsolid u (List.mem_cons_of_mem _ hu)
    have hnextParam : (⟨id, command, done, false⟩ : Instruction).nextParam? = some param :=
      nextParam?_eq hp
    rw [List.isEmpty_cons, advanceAll?_cons, Option.bind_eq_some_iff] at h
    obtain ⟨next, hnext, hrest⟩ := h
    rcases inside_of_advance? hc hi hnextParam hblank hnext with ⟨ht, x, hx⟩ | ⟨hk, ht⟩
    · rw [advance?_waiting hc hi, feed_number hnextParam ht hx, bind_eq hp rfl] at hnext
      simp only [Option.some.injEq] at hnext
      rw [← hnext] at hrest
      have hparams : command.params = (done ++ [Arg.number param x]).map Arg.param ++ params := by
        rw [hp]
        simp [Arg.param]
      obtain ⟨used, rest, args, m, htokens, hargs⟩ := derivesArgs_of_advanceAll? ts s r id command
        (done ++ [.number param x]) params hc hsolid' hrest hr hparams
      exact ⟨t :: used, rest, .number param x :: args, m, by rw [htokens]; rfl, .number ht hx hargs⟩
    · rw [advance?_waiting hc hi, feed_open hnextParam hk ht] at hnext
      simp only [Option.some.injEq] at hnext
      rw [← hnext] at hrest
      obtain ⟨used, after, body, m, htokens, hbody, hgoes⟩ := derivesScript_of_advanceAll? ts
        (s.opening ⟨⟨id, command, done, false⟩, param, #[]⟩) r hc hsolid' hrest hr
      rcases hgoes with ⟨hnil, -⟩ | ⟨-, right, us, hafter, hright⟩
      · cases hnil
      · subst hafter
        obtain ⟨hcomplete, hinside⟩ := advanceAll?_script hbody
          (s.opening ⟨⟨id, command, done, false⟩, param, #[]⟩) (right :: us) hc rfl
        rw [htokens, hinside, closes_block hc hp hcomplete hright] at hrest
        have hparams : command.params = (done ++ [Arg.block param body]).map Arg.param ++ params := by
          rw [hp]
          simp [Arg.param]
        have hlater : ∀ u ∈ us, u.isBlank = false := fun u hu =>
          hsolid' u (htokens ▸ List.mem_append_right used (List.mem_cons_of_mem _ hu))
        obtain ⟨more, rest, args, k, hus, hargs⟩ := derivesArgs_of_advanceAll? us (s.upTo m) r id
          command (done ++ [.block param body]) params hc hlater hrest hr hparams
        refine ⟨t :: (used ++ right :: more), rest, .block param body :: args, k, ?_,
          .block hk ht hbody hright hargs⟩
        rw [htokens, hus]
        simp
termination_by ts.length
decreasing_by
  all_goals
    try rw [htokens]
    simp only [List.length_cons, List.length_append]
    omega
end

/-! ## The law of parsing -/

theorem waitsRightly_empty : empty.WaitsRightly := fun i hi => by cases hi

/-- A derivation is what the parser does, white space apart. -/
theorem takeAll?_of_derivesScript {tokens : List Token} {body : List Instruction} {m : Nat}
    (h : DerivesScript 0 (solid tokens) body m) :
    ∃ r, empty.takeAll? tokens = some r ∧ r.core = (empty.upTo m).settleAll body := by
  obtain ⟨-, hread⟩ := advanceAll?_script h empty [] rfl rfl
  have hcore : empty.core = empty := rfl
  rw [List.append_nil, advanceAll?_solid waitsRightly_empty, ← hcore, advanceAll?_core, hcore,
    advanceAll?_nil, Option.map_eq_some_iff] at hread
  exact hread

/-- What the parser reads to the end has a derivation. -/
theorem derivesScript_of_takeAll? {tokens : List Token} {r : Script}
    (h : empty.takeAll? tokens = some r) (hr : r.isIncomplete = false) :
    ∃ body m, DerivesScript 0 (solid tokens) body m := by
  have hread := advanceAll?_core empty tokens
  have hcore : empty.core = empty := rfl
  rw [h, hcore, ← advanceAll?_solid waitsRightly_empty] at hread
  have hsolid : ∀ t ∈ solid tokens, t.isBlank = false := by
    intro t ht
    simpa using (List.mem_filter.mp ht).2
  obtain ⟨used, rest, body, m, htokens, hbody, hgoes⟩ :=
    derivesScript_of_advanceAll? (solid tokens) empty r.core rfl hsolid hread hr
  have hrest : rest = [] := by
    rcases hgoes with ⟨-, hrest⟩ | ⟨hopen, -⟩
    · exact hrest
    · exact absurd rfl hopen
  rw [hrest, List.append_nil] at htokens
  rw [htokens]
  exact ⟨body, m, hbody⟩

/-- Derived tokens leave the script of their derivation. -/
theorem replay_of_derivesScript {tokens : List Token} {body : List Instruction} {m : Nat}
    (h : DerivesScript 0 (solid tokens) body m) :
    (empty.replay tokens).error = none ∧ (empty.replay tokens).isIncomplete = false ∧
      (empty.replay tokens).instructions.toList = body ∧ (empty.replay tokens).nextId = m := by
  obtain ⟨hcomplete, -⟩ := advanceAll?_script h empty [] rfl rfl
  obtain ⟨r, htake, hcore⟩ := takeAll?_of_derivesScript h
  have houtside : (empty.upTo m).openBlocks = [] := rfl
  obtain ⟨hinstructions, hblocks, hcurrent, hnext⟩ := settleAll_outside hcomplete houtside
  rw [← hcore] at hinstructions hblocks hcurrent hnext
  have hcurrentNone : r.current = none := hcurrent
  have hblocksNil : r.openBlocks = [] := hblocks
  have herror : (empty.replay tokens).error = none := by
    rw [error_replay_eq_none_iff rfl, htake]
    rfl
  rw [replay_of_takeAll? htake] at herror ⊢
  refine ⟨herror, ?_, ?_, hnext⟩
  · simp [isIncomplete, hcurrentNone, hblocksNil]
  · have hnil : (empty.upTo m).instructions.toList = [] := rfl
    rw [hnil, List.nil_append] at hinstructions
    exact hinstructions

/-- Tokens are taken without an error and without leaving a statement open exactly if they are
derived by the grammar, white space apart. The statements are then those of the derivation, of
which there is only one; all are complete, and their ids count the calls from the first. -/
theorem parser_reads_the_grammar (tokens : List Token) :
    (((empty.replay tokens).error = none ∧ (empty.replay tokens).isIncomplete = false) ↔
      ∃ body m, DerivesScript 0 (solid tokens) body m) ∧
    ∀ body m, DerivesScript 0 (solid tokens) body m →
      (empty.replay tokens).instructions.toList = body ∧ (empty.replay tokens).nextId = m ∧
      (bodyCalls body).map (·.id) = List.range m ∧ ∀ i ∈ bodyCalls body, i.isComplete = true := by
  refine ⟨⟨?_, ?_⟩, ?_⟩
  · rintro ⟨herror, hincomplete⟩
    rw [error_replay_eq_none_iff rfl, Option.isSome_iff_exists] at herror
    obtain ⟨r, hr⟩ := herror
    rw [replay_of_takeAll? hr] at hincomplete
    exact derivesScript_of_takeAll? hr hincomplete
  · rintro ⟨body, m, h⟩
    obtain ⟨herror, hincomplete, -⟩ := replay_of_derivesScript h
    exact ⟨herror, hincomplete⟩
  · intro body m h
    obtain ⟨-, -, hinstructions, hnext⟩ := replay_of_derivesScript h
    obtain ⟨hlength, hids, hcomplete⟩ := h.inOrder
    refine ⟨hinstructions, hnext, ?_, hcomplete⟩
    rw [hids, List.range_eq_range', ← hlength, Nat.zero_add]

theorem nested_blocks_are_derived :
    ∃ body, DerivesScript 0 (solid (lex "rp 2 [fd 7 rp 3[rt 90 ]\n] pu" 1).tokens) body 5 ∧
      (bodyCalls body).map (·.id) = [0, 1, 2, 3, 4] := by
  have haccepted : (empty.replay (lex "rp 2 [fd 7 rp 3[rt 90 ]\n] pu" 1).tokens).error = none ∧
      (empty.replay (lex "rp 2 [fd 7 rp 3[rt 90 ]\n] pu" 1).tokens).isIncomplete = false := by
    decide +kernel
  have hnext : (empty.replay (lex "rp 2 [fd 7 rp 3[rt 90 ]\n] pu" 1).tokens).nextId = 5 := by
    decide +kernel
  obtain ⟨hiff, hall⟩ := parser_reads_the_grammar (lex "rp 2 [fd 7 rp 3[rt 90 ]\n] pu" 1).tokens
  obtain ⟨body, m, h⟩ := hiff.mp haccepted
  obtain ⟨-, hm, hids, -⟩ := hall body m h
  have hfive : m = 5 := by rw [← hm, hnext]
  subst hfive
  exact ⟨body, h, hids⟩

end TurtleScript.Script
