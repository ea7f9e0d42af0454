import SpecJit.Proofs.Availability.Rounds
import SpecJit.Proofs.Fixpoint.Replay
import SpecJit.Proofs.Graph.Guarded

/-!
# Going over the blocks

The blocks are gone over in rounds, and those are executed whose heads changed since they were
executed before. Handing facts to a successor changes nothing or gives something up
(`Facts.merge_room`), and all heads together can give up so much only (`Heads.room_le`).

All along, a block that control can reach either waits to be executed again, or what comes about at
its end is taken into account at the heads that control may go on to (`FlowsOn`). This stays true
while other heads change, since they only come to allow more (`Round.Sound.visit`). No step is
interrupted, nor would one be with every access checked.

A round in which something changes gives something up, and `maxRounds` is more than all heads
together can give up (`room_start_lt`). So the rounds come to an end, with one that changes nothing:
no block waits any longer, and the heads are a post-fixpoint (`fixpoint_postFixpoint`).
-/

namespace SpecJit

namespace Guarded

open AbstractState

/-- Hands the current facts to a successor. -/
def flowInto (limit : Nat) (r : Round) (b : BlockIndex) : Except Interrupt Round := do
  let facts ← read r.state.blocks b.index
  let (head, grew) := facts.head.merge limit r.state.current
  if facts.visited && !grew then return r
  let blocks ← write r.state.blocks b.index { facts with head, visited := true }
  let dirty ← write r.dirty b.index true
  return { state := { r.state with blocks }, dirty, changed := true }

/-- The blocks that control may go to from the end of a block, whose last node is looked at. -/
def flowingSuccessors (g : Graph) (s : AbstractState) (b : BlockIndex) :
    Except Interrupt (List BlockIndex) := do
  discard (successors g b)
  lift (s.flowingSuccessors g b)

/-- Executes a block that control can come to and whose head changed. -/
def visitBlock (g : Graph) (d : Dominators) (limit : Nat) (r : Round) (b : BlockIndex) :
    Except Interrupt Round := do
  if !(← read r.dirty b.index) || !d.isReachable b then return r
  let dirty ← write r.dirty b.index false
  let s ← lift (r.state.beginBlock b)
  let s ← lift (executeAll g (← read g.blocks b.index).nodes.toList s)
  let r := { r with state := s, dirty }
  if s.valid then (← flowingSuccessors g s b).foldlM (flowInto limit) r else return r

/-- Goes over the blocks until no head changes, and counts the rounds. -/
def settleFacts (g : Graph) (d : Dominators) (limit : Nat) (order : List BlockIndex) :
    Nat → Nat → Round → Except Interrupt (AbstractState × Nat)
  | 0, _, _ => .error .outOfSteps
  | rounds + 1, count, r => do
    let r ← order.foldlM (visitBlock g d limit) { r with changed := false }
    if r.changed then settleFacts g d limit order rounds (count + 1) r else return (r.state,
      count + 1)

end Guarded

namespace AbstractState

open AvailabilityMap (sum_map_set sum_map_le)

variable {g : Graph} {limit : Nat} {s s' s'' : AbstractState} {b c v : BlockIndex}
  {succs : List BlockIndex} {r r' r'' : Round} {i : Nat}

/-! ## Replaying a block -/

/-- Executes a block from the facts at its head. -/
def replay (g : Graph) (s : AbstractState) (b : BlockIndex) : Except Fault AbstractState := do
  executeAll g (← g.block b).nodes.toList (← s.beginBlock b)

/-- Control can reach the block, and its head allows what the facts do. -/
def Reached (s : AbstractState) (v : BlockIndex) (tail : Facts) : Prop :=
  ∃ facts, s.blocks[v.index]? = some facts ∧ facts.visited = true ∧ facts.head.Covers tail

/-- What is known at the end of a block is taken into account at the heads that control may go on
to. -/
def FlowsOn (g : Graph) (s : AbstractState) (b : BlockIndex) : Prop :=
  ∃ tail, s.replay g b = .ok tail ∧ (tail.valid = true →
    ∃ succs, tail.flowingSuccessors g b = .ok succs ∧ ∀ v ∈ succs, s.Reached v tail.current)

/-- Control can reach the entry, and what is known at the end of any block that it can reach is
taken into account. -/
structure PostFixpoint (g : Graph) (s : AbstractState) : Prop where
  entry : ∃ facts, s.blocks[0]? = some facts ∧ facts.visited = true
  flows : ∀ (b : BlockIndex) facts, s.blocks[b.index]? = some facts → facts.visited = true →
    s.FlowsOn g b

theorem executeAll_blocks {ids : List NodeId} (h : executeAll g ids s = .ok s') :
    s'.blocks = s.blocks := by
  have hsame : executeAll g ids s = (executeAll g ids s).map (withBlocks s.blocks) :=
    executeAll_withBlocks s.blocks ids
  rw [h] at hsame
  have hblocks : s' = s'.withBlocks s.blocks := Except.ok.inj hsame
  rw [hblocks]
  rfl

theorem replay_withBlocks {blocks : Array BlockFacts} (h : blocks[b.index]? = s.blocks[b.index]?) :
    (s.withBlocks blocks).replay g b = (s.replay g b).map (withBlocks blocks) := by
  unfold replay
  refine bind_withBlocks blocks _ fun blk => ?_
  rw [beginBlock, beginBlock,
    show (s.withBlocks blocks).blocks[b.index]? = s.blocks[b.index]? from h]
  cases s.blocks[b.index]? with
  | none => rfl
  | some facts =>
    exact executeAll_withBlocks (s := { s with current := facts.head, valid := facts.visited })
      blocks _

/-- A block can be replayed from facts about nodes of the graph. -/
theorem replay_total (hvalid : g.validate = .ok ()) (hb : b.index < g.blocks.size)
    {facts : BlockFacts} (hfacts : s.blocks[b.index]? = some facts) (habout : facts.head.About g) :
    ∃ tail, s.replay g b = .ok tail ∧ tail.current.About g ∧ tail.blocks = s.blocks := by
  obtain ⟨blk, hblk⟩ : ∃ blk, g.block? b = some blk := ⟨_, Array.getElem?_eq_getElem hb⟩
  have hlisted := ((Graph.validate_ok hvalid).2 blk (Array.mem_of_getElem? hblk)).listed
  obtain ⟨tail, htail, hcurrent⟩ := executeAll_total blk.nodes.toList
    (s := { s with current := facts.head, valid := facts.visited })
      (fun id hid => hlisted id (by simpa using hid)) habout
  have hblocks := executeAll_blocks htail
  refine ⟨tail, ?_, hcurrent, hblocks⟩
  simp only [replay, Graph.block, hblk, beginBlock, hfacts, Fault.ofOption, bind, Except.bind, pure,
    Except.pure]
  exact htail

/-- Control goes on to successors of a block. -/
theorem flowingSuccessors_total (hvalid : g.validate = .ok ()) (s : AbstractState) (b : BlockIndex)
    :
    ∃ succs, s.flowingSuccessors g b = .ok succs ∧ ∀ v ∈ succs, v ∈ g.successors b := by
  unfold flowingSuccessors
  cases hterm : g.terminal? b with
  | none => exact ⟨[], rfl, by simp⟩
  | some last =>
    obtain ⟨blk, hblk, hlast⟩ := Option.bind_eq_some_iff.1 hterm
    obtain ⟨last', hback, hlast⟩ := Option.bind_eq_some_iff.1 hlast
    obtain ⟨node, hn, hlast⟩ := Option.bind_eq_some_iff.1 hlast
    obtain rfl : last' = last := by
      split at hlast
      · exact Option.some.inj hlast
      · cases hlast
    have hlisted := ((Graph.validate_ok hvalid).2 blk (Array.mem_of_getElem? hblk)).listed last'
      (Array.mem_of_back? hback)
    obtain ⟨node', hn', hlinked⟩ := Graph.checkListed_linked hlisted
    obtain rfl : node = node' := by
      rw [Graph.node, hn] at hn'
      exact Except.ok.inj hn'
    have hsucc : g.successors b = node.op.successors := by simp [Graph.successors, hterm, hn]
    simp only [hn', bind, Except.bind, hsucc]
    split
    · rename_i d hop
      obtain ⟨e, he, -⟩ := child_total hlinked (i := 0) (by simp [hop, Op.minChildren])
      simp only [he, hop, Op.successors]
      split
      · exact ⟨_, rfl, by simp⟩
      · exact ⟨_, rfl, by simp⟩
      · exact ⟨_, rfl, by simp⟩
    · exact ⟨_, rfl, fun v hv => hv⟩

/-! ## Heads that come to allow more -/

/-- Every head allows what it allowed, and the blocks that control could reach are still reached. -/
def Grows (s s' : AbstractState) : Prop := ∀ (i : Nat) facts, s.blocks[i]? = some facts →
  ∃ facts', s'.blocks[i]? = some facts' ∧ (facts.visited = true → facts'.visited = true) ∧
  facts'.head.Covers facts.head

theorem Grows.refl (s : AbstractState) : Grows s s := fun _ facts h => ⟨facts, h, id, .refl _⟩

theorem Grows.trans (h₁ : Grows s s') (h₂ : Grows s' s'') : Grows s s'' := fun i facts h => by
  obtain ⟨facts', h', hvisited', hcovers'⟩ := h₁ i facts h
  obtain ⟨facts'', h'', hvisited'', hcovers''⟩ := h₂ i facts' h'
  exact ⟨facts'', h'', fun hv => hvisited'' (hvisited' hv), hcovers''.trans hcovers'⟩

theorem Reached.mono {tail : Facts} (h : s.Reached v tail) (hgrows : Grows s s') :
    s'.Reached v tail := by
  obtain ⟨facts, hfacts, hvisited, hcovers⟩ := h
  obtain ⟨facts', hfacts', hvisited', hcovers'⟩ := hgrows _ _ hfacts
  exact ⟨facts', hfacts', hvisited' hvisited, hcovers'.trans hcovers⟩

/-- What is taken into account stays so while other heads come to allow more. -/
theorem FlowsOn.mono (h : s.FlowsOn g b) (hgrows : Grows s s')
    (hsame : s'.blocks[b.index]? = s.blocks[b.index]?) :
    s'.FlowsOn g b := by
  obtain ⟨tail, htail, hflows⟩ := h
  have hreplay : s'.replay g b = (s.replay g b).map (withBlocks s'.blocks) :=
    replay_withBlocks (s := s) hsame
  rw [htail] at hreplay
  refine ⟨tail.withBlocks s'.blocks, hreplay, fun hvalid => ?_⟩
  obtain ⟨succs, hsuccs, hreached⟩ := hflows hvalid
  exact ⟨succs, hsuccs, fun v hv => (hreached v hv).mono hgrows⟩

/-! ## What can still be given up -/

/-- How often what is known of a block can still change. -/
def blockRoom (limit : Nat) (facts : BlockFacts) : Nat :=
  (if facts.visited then 0 else 1) + facts.head.room limit

/-- How often what is known of all blocks can still change. -/
def room (limit : Nat) (s : AbstractState) : Nat := (s.blocks.toList.map (blockRoom limit)).sum

/-- The heads are about nodes of the graph. -/
structure Heads (g : Graph) (s : AbstractState) : Prop where
  size : s.blocks.size = g.blocks.size
  about : ∀ (i : Nat) facts, s.blocks[i]? = some facts → facts.head.About g
  possible : ∀ (i : Nat) facts, s.blocks[i]? = some facts → facts.head.Possible

theorem Heads.room_le (h : Heads g s) (limit : Nat) :
    s.room limit ≤ (1 + (limit + 67) * g.nodes.size) * g.blocks.size := by
  have hlength : s.blocks.toList.length = g.blocks.size := by simp [h.size]
  rw [← hlength]
  refine sum_map_le fun facts hfacts => ?_
  obtain ⟨i, hi⟩ := Array.getElem?_of_mem (Array.mem_toList_iff.1 hfacts)
  have hroom := (h.about i facts hi).room_le limit
  unfold blockRoom
  split <;> omega

theorem room_setIfInBounds (limit : Nat) {facts : BlockFacts} (h : s.blocks[i]? = some facts)
    (facts' : BlockFacts) :
    room limit { s with blocks := s.blocks.setIfInBounds i facts' } + blockRoom limit facts =
      s.room limit + blockRoom limit facts' := by
  simp only [room, Array.toList_setIfInBounds]
  exact sum_map_set (by simpa using h) facts'

/-! ## Handing facts on -/

/-- What is done when facts are handed to some successors. -/
structure Hands (g : Graph) (limit : Nat) (succs : List BlockIndex) (r r' : Round) : Prop where
  current : r'.state.current = r.state.current
  heads : Heads g r'.state
  grows : Grows r.state r'.state
  dirtySize : r'.dirty.size = r.dirty.size
  /-- a block whose head changed waits to be executed -/
  kept : ∀ i : Nat, r'.dirty[i]? = some true ∨ r'.state.blocks[i]? = r.state.blocks[i]?
  waits : ∀ i : Nat, r.dirty[i]? = some true → r'.dirty[i]? = some true
  origin : ∀ c : BlockIndex, r'.dirty[c.index]? = some true → r.dirty[c.index]? = some true ∨
    c ∈ succs ∧ r'.changed = true
  reached : ∀ v ∈ succs, r'.state.Reached v r.state.current
  gives : r' = r ∨ r'.changed = true ∧ r'.state.room limit < r.state.room limit

/-- The head of a block is replaced, and the block waits to be executed. -/
def Round.accept (r : Round) (v : BlockIndex) (facts : BlockFacts) : Round where
  state := { r.state with blocks := r.state.blocks.setIfInBounds v.index facts }
  dirty := r.dirty.setIfInBounds v.index true
  changed := true

/-- The facts at the head of a block, with others taken in. -/
def mergeInto (limit : Nat) (r : Round) (v : BlockIndex) (facts : BlockFacts) : Round :=
  if facts.visited && !(facts.head.merge limit r.state.current).2 then r
  else r.accept v { facts with head := (facts.head.merge limit r.state.current).1, visited := true }

theorem flowInto_eq {facts : BlockFacts} (hfacts : r.state.blocks[v.index]? = some facts) :
    flowInto limit r v = .ok (mergeInto limit r v facts) := by
  rw [flowInto, hfacts, mergeInto]
  simp only [Fault.ofOption, bind, Except.bind]
  split <;> rfl

theorem guarded_flowInto_eq {facts : BlockFacts} (hfacts : r.state.blocks[v.index]? = some facts)
    (hv : v.index < r.dirty.size) :
    Guarded.flowInto limit r v = .ok (mergeInto limit r v facts) := by
  have hblocks : v.index < r.state.blocks.size := (Array.getElem?_eq_some_iff.1 hfacts).1
  rw [Guarded.flowInto, Guarded.read_eq hfacts, mergeInto]
  simp only [bind, Except.bind, Guarded.write_eq hblocks, Guarded.write_eq hv]
  split <;> rfl

theorem accept_hands {facts facts' : BlockFacts} (hr : Heads g r.state)
    (hdirty : r.dirty.size = g.blocks.size) (hfacts : r.state.blocks[v.index]? = some facts)
    (habout : facts'.head.About g) (hpossible : facts'.head.Possible)
    (hvisited : facts'.visited = true) (hmine : facts'.head.Covers facts.head)
    (htheirs : facts'.head.Covers r.state.current)
    (hless : blockRoom limit facts' < blockRoom limit facts) :
    Hands g limit [v] r (r.accept v facts') := by
  have hlt : v.index < r.state.blocks.size := (Array.getElem?_eq_some_iff.1 hfacts).1
  have hblocks (i : Nat) : (r.accept v facts').state.blocks[i]? = if v.index = i then some facts'
    else r.state.blocks[i]? := by
    simp only [Round.accept, Array.getElem?_setIfInBounds, hlt, ↓reduceIte]
  have hwaits (i : Nat) : (r.accept v facts').dirty[i]? = if v.index = i then some true
    else r.dirty[i]? := by
    have hlt : v.index < r.dirty.size := by rw [hdirty, ← hr.size]; exact hlt
    simp only [Round.accept, Array.getElem?_setIfInBounds, hlt, ↓reduceIte]
  -- what holds of the new head and of all old ones
  have hall {P : BlockFacts → Prop} (hnew : P facts') (hold : ∀ (i : Nat) f,
    r.state.blocks[i]? = some f → P f) (i : Nat)
      (f : BlockFacts) (hf : (r.accept v facts').state.blocks[i]? = some f) : P f := by
    rw [hblocks] at hf
    split at hf
    · cases hf
      exact hnew
    · exact hold i f hf
  constructor
  case current => rfl
  case heads =>
    exact ⟨by simp [Round.accept, hr.size], hall habout hr.about, hall hpossible hr.possible⟩
  case grows =>
    intro i f hf
    rw [hblocks]
    split
    · rename_i hi
      subst hi
      rw [hfacts] at hf
      cases hf
      exact ⟨facts', rfl, fun _ => hvisited, hmine⟩
    · exact ⟨f, hf, id, .refl _⟩
  case dirtySize => simp [Round.accept]
  case kept =>
    intro i
    rw [hblocks, hwaits]
    split
    · exact .inl rfl
    · exact .inr rfl
  case waits =>
    intro i h
    rw [hwaits]
    split
    · rfl
    · exact h
  case origin =>
    intro c h
    rw [hwaits] at h
    split at h
    · rename_i hi
      exact .inr ⟨List.mem_singleton.2 (BlockIndex.eq_of_index hi.symm), rfl⟩
    · exact .inl h
  case reached =>
    intro w hw
    obtain rfl := List.mem_singleton.1 hw
    exact ⟨facts', by rw [hblocks, if_pos rfl], hvisited, htheirs⟩
  case gives =>
    have hroom := room_setIfInBounds limit hfacts facts'
    exact .inr ⟨rfl, by simp only [Round.accept]; omega⟩

theorem Hands.refl (hr : Heads g r.state) : Hands g limit [] r r :=
  ⟨rfl, hr, .refl _, rfl, fun _ => .inr rfl, fun _ h => h, fun _ h => .inl h, by simp, .inl rfl⟩

theorem Hands.changed (h : Hands g limit succs r r') (hr : r.changed = true) :
    r'.changed = true := by
  rcases h.gives with rfl | ⟨hchanged, -⟩
  · exact hr
  · exact hchanged

/-- Facts are handed to some successors and then to others. -/
theorem Hands.trans {succs' : List BlockIndex} (h₁ : Hands g limit succs r r')
    (h₂ : Hands g limit succs' r' r'') :
    Hands g limit (succs ++ succs') r r'' := by
  constructor
  case current => exact h₂.current.trans h₁.current
  case heads => exact h₂.heads
  case grows => exact h₁.grows.trans h₂.grows
  case dirtySize => exact h₂.dirtySize.trans h₁.dirtySize
  case waits => exact fun i h => h₂.waits i (h₁.waits i h)
  case kept =>
    intro i
    rcases h₂.kept i with hwaits | hsame
    · exact .inl hwaits
    · rcases h₁.kept i with hwaits | hsame'
      · exact .inl (h₂.waits i hwaits)
      · exact .inr (hsame.trans hsame')
  case origin =>
    intro c h
    rcases h₂.origin c h with h | ⟨hmem, hchanged⟩
    · rcases h₁.origin c h with h | ⟨hmem, hchanged⟩
      · exact .inl h
      · exact .inr ⟨List.mem_append_left _ hmem, h₂.changed hchanged⟩
    · exact .inr ⟨List.mem_append_right _ hmem, hchanged⟩
  case reached =>
    intro v hv
    rcases List.mem_append.1 hv with hv | hv
    · exact (h₁.reached v hv).mono h₂.grows
    · exact h₁.current ▸ h₂.reached v hv
  case gives =>
    rcases h₁.gives with rfl | ⟨hchanged, hless⟩
    · exact h₂.gives
    · rcases h₂.gives with rfl | ⟨hchanged', hless'⟩
      · exact .inr ⟨hchanged, hless⟩
      · exact .inr ⟨hchanged', hless'.trans hless⟩

theorem flowInto_hands (limit : Nat) (hr : Heads g r.state) (hdirty : r.dirty.size = g.blocks.size)
    (hcurrent : r.state.current.About g) (hv : v.index < g.blocks.size) :
    ∃ r', flowInto limit r v = .ok r' ∧ Guarded.flowInto limit r v = .ok r' ∧
      Hands g limit [v] r r' := by
  obtain ⟨facts, hfacts⟩ : ∃ facts, r.state.blocks[v.index]? = some facts :=
    ⟨_, Array.getElem?_eq_getElem (by rw [hr.size]; exact hv)⟩
  have habout := hr.about _ _ hfacts
  have hpossible := hr.possible _ _ hfacts
  obtain ⟨hmine, htheirs⟩ := Facts.merge_covers limit habout hcurrent hpossible
  have hmerge := Facts.merge_room limit habout hcurrent hpossible
  refine ⟨mergeInto limit r v facts, flowInto_eq hfacts, guarded_flowInto_eq hfacts
    (by rw [hdirty]; exact hv), ?_⟩
  rw [mergeInto]
  split
  · rename_i hsame
    rw [Bool.and_eq_true, Bool.not_eq_true'] at hsame
    rcases hmerge with hmerge | ⟨hmerge, -⟩
    · rw [hmerge] at htheirs
      have hrefl : Hands g limit [] r r := .refl hr
      refine { hrefl with origin := fun c h => .inl h, reached := fun w hw => ?_ }
      obtain rfl := List.mem_singleton.1 hw
      exact ⟨facts, hfacts, hsame.1, htheirs⟩
    · rw [hsame.2] at hmerge
      cases hmerge
  · rename_i hchanged
    refine accept_hands hr hdirty hfacts (habout.merge hcurrent) (hpossible.merge habout hcurrent)
      rfl hmine htheirs ?_
    rcases hmerge with hmerge | ⟨-, hmerge⟩
    · have hvisited : facts.visited = false := by simpa [hmerge] using hchanged
      simp [blockRoom, hvisited, hmerge]
    · exact Nat.add_lt_add_of_le_of_lt (Nat.zero_le _) hmerge

theorem foldlM_flowInto_hands (limit : Nat) (hr : Heads g r.state)
    (hdirty : r.dirty.size = g.blocks.size) (hcurrent : r.state.current.About g)
    (hsuccs : ∀ v ∈ succs, v.index < g.blocks.size) :
    ∃ r', succs.foldlM (flowInto limit) r = .ok r' ∧ succs.foldlM (Guarded.flowInto limit)
      r = .ok r' ∧
      Hands g limit succs r r' := by
  induction succs generalizing r with
  | nil => exact ⟨r, rfl, rfl, .refl hr⟩
  | cons v succs ih =>
    rw [List.forall_mem_cons] at hsuccs
    obtain ⟨r₁, h₁, hguarded₁, hfirst⟩ := flowInto_hands limit hr hdirty hcurrent hsuccs.1
    obtain ⟨r', h', hguarded', hrest⟩ :=
      ih hfirst.heads (hfirst.dirtySize.trans hdirty) (hfirst.current ▸ hcurrent) hsuccs.2
    exact ⟨r', by rw [List.foldlM_cons, h₁]; exact h',
      by rw [List.foldlM_cons, hguarded₁]; exact hguarded', hfirst.trans hrest⟩

/-! ## One block and one round -/

/-- What holds all along: a block that control can reach waits to be executed, or what is known at
its end is taken into account. -/
structure Round.Sound (g : Graph) (r : Round) : Prop where
  heads : Heads g r.state
  dirtySize : r.dirty.size = g.blocks.size
  entry : ∃ facts, r.state.blocks[0]? = some facts ∧ facts.visited = true
  inOrder : ∀ b : BlockIndex, r.dirty[b.index]? = some true → b ∈ g.reversePostorder
  flows : ∀ (b : BlockIndex) facts, r.state.blocks[b.index]? = some facts → facts.visited = true →
    r.dirty[b.index]? = some true ∨ r.state.FlowsOn g b

/-- What is done when some blocks are gone over. Those that wait afterwards do so because of a
change. -/
structure Visits (limit : Nat) (done : List BlockIndex) (r r' : Round) : Prop where
  gives : r'.changed = r.changed ∧ r'.state.room limit = r.state.room limit ∨
    r'.changed = true ∧ r'.state.room limit < r.state.room limit
  origin : ∀ i : Nat, r'.dirty[i]? = some true → r.dirty[i]? = some true ∨ r'.changed = true
  settled : ∀ b ∈ done, r'.dirty[b.index]? = some true → r'.changed = true

/-- Some blocks are gone over and then others. -/
theorem Visits.trans {done done' : List BlockIndex} (h₁ : Visits limit done r r')
    (h₂ : Visits limit done' r' r'') :
    Visits limit (done ++ done') r r'' := by
  have hchanged (h : r'.changed = true) : r''.changed = true := by
    rcases h₂.gives with ⟨hsame, -⟩ | ⟨hchanged, -⟩
    · exact hsame.trans h
    · exact hchanged
  constructor
  case gives =>
    rcases h₁.gives with ⟨hsame, hroom⟩ | ⟨hfirst, hless⟩ <;>
      rcases h₂.gives with ⟨hsame', hroom'⟩ | ⟨hrest, hless'⟩
    · exact .inl ⟨hsame'.trans hsame, hroom'.trans hroom⟩
    · exact .inr ⟨hrest, by omega⟩
    · exact .inr ⟨hsame'.trans hfirst, by omega⟩
    · exact .inr ⟨hrest, by omega⟩
  case origin =>
    intro i h
    rcases h₂.origin i h with h | h
    · exact (h₁.origin i h).imp_right hchanged
    · exact .inr h
  case settled =>
    intro b hb h
    rcases List.mem_append.1 hb with hb | hb
    · rcases h₂.origin b.index h with h | h
      · exact hchanged (h₁.settled b hb h)
      · exact h
    · exact h₂.settled b hb h

theorem visitBlock_eq (limit : Nat) {tail : AbstractState} (hdirty : r.dirty[b.index]? = some true)
    (htail : r.state.replay g b = .ok tail) : visitBlock g limit r b =
      if tail.valid then do
        (← tail.flowingSuccessors g b).foldlM (flowInto limit)
          { r with state := tail, dirty := r.dirty.setIfInBounds b.index false }
      else .ok { r with state := tail, dirty := r.dirty.setIfInBounds b.index false } := by
  obtain ⟨blk, hblk, htail⟩ := bind_eq_ok_iff.1 htail
  obtain ⟨start, hstart, htail⟩ := bind_eq_ok_iff.1 htail
  rw [visitBlock, if_neg (by simp [hdirty])]
  simp only [hstart, hblk, htail, bind, Except.bind]
  rfl

theorem guarded_flowingSuccessors_eq (hvalid : g.validate = .ok ()) (hb : b.index < g.blocks.size)
    (hsuccs : s.flowingSuccessors g b = .ok succs) :
    Guarded.flowingSuccessors g s b = .ok succs := by
  rw [Guarded.flowingSuccessors, Guarded.successors_eq (Graph.validate_lastExist hvalid) hb]
  exact Guarded.lift_eq hsuccs

theorem guarded_visitBlock_eq (limit : Nat) {d : Dominators} {tail : AbstractState}
    (hd : d.isReachable b = true) (hdirty : r.dirty[b.index]? = some true)
    (htail : r.state.replay g b = .ok tail) : Guarded.visitBlock g d limit r b =
      if tail.valid then do
        (← Guarded.flowingSuccessors g tail b).foldlM (Guarded.flowInto limit)
          { r with state := tail, dirty := r.dirty.setIfInBounds b.index false }
      else .ok { r with state := tail, dirty := r.dirty.setIfInBounds b.index false } := by
  obtain ⟨blk, hblk, htail⟩ := bind_eq_ok_iff.1 htail
  obtain ⟨start, hstart, htail⟩ := bind_eq_ok_iff.1 htail
  have hlt : b.index < r.dirty.size := (Array.getElem?_eq_some_iff.1 hdirty).1
  have hread : Guarded.read g.blocks b.index = .ok blk :=
    Guarded.read_eq (Fault.ofOption_eq_ok.1 hblk)
  rw [Guarded.visitBlock, Guarded.read_eq hdirty]
  simp only [bind, Except.bind, hd, Bool.not_true, Bool.or_false, Bool.false_eq_true, ↓reduceIte,
    Guarded.write_eq hlt, Guarded.lift_eq hstart, hread, Guarded.lift_eq htail]
  rfl

/-- Executing a block that waits, and handing on what is known at its end. -/
theorem visitBlock_hands (limit : Nat) (hvalid : g.validate = .ok ()) (hr : r.Sound g)
    (hdirty : r.dirty[b.index]? = some true) {d : Dominators} (hd : d.isReachable b = true) :
    ∃ tail succs r', r.state.replay g b = .ok tail ∧ tail.blocks = r.state.blocks ∧
      visitBlock g limit r b = .ok r' ∧
      Guarded.visitBlock g d limit r b = .ok r' ∧
      (tail.valid = true → tail.flowingSuccessors g b = .ok succs) ∧
      (∀ v ∈ succs, v ∈ g.successors b) ∧
      Hands g limit succs { r with state := tail, dirty := r.dirty.setIfInBounds b.index false }
        r' := by
  have hb : b.index < g.blocks.size := hr.dirtySize ▸ (Array.getElem?_eq_some_iff.1 hdirty).1
  obtain ⟨facts, hfacts⟩ : ∃ facts, r.state.blocks[b.index]? = some facts :=
    ⟨_, Array.getElem?_eq_getElem (by rw [hr.heads.size]; exact hb)⟩
  obtain ⟨tail, htail, hcurrent, hblocks⟩ :=
    replay_total hvalid hb hfacts (hr.heads.about _ _ hfacts)
  have hheads : Heads g tail :=
    ⟨hblocks ▸ hr.heads.size, hblocks ▸ hr.heads.about, hblocks ▸ hr.heads.possible⟩
  obtain ⟨succs, hsuccs, hmem⟩ := flowingSuccessors_total hvalid tail b
  have hvisit := visitBlock_eq limit hdirty htail
  have hguarded := guarded_visitBlock_eq limit hd hdirty htail
  by_cases hv : tail.valid = true
  · obtain ⟨r', h', hguarded', hhands⟩ := foldlM_flowInto_hands limit
      (r := { r with state := tail, dirty := r.dirty.setIfInBounds b.index false }) hheads
        (by simp [hr.dirtySize]) hcurrent
      fun v hv => Graph.validate_successorsExist hvalid b v (hmem v hv)
    rw [if_pos hv, hsuccs] at hvisit
    rw [if_pos hv, guarded_flowingSuccessors_eq hvalid hb hsuccs] at hguarded
    exact ⟨tail, succs, r', htail, hblocks, hvisit.trans h', hguarded.trans hguarded',
      fun _ => hsuccs, hmem, hhands⟩
  · rw [if_neg hv] at hvisit hguarded
    exact ⟨tail, [], _, htail, hblocks, hvisit, hguarded, fun h => absurd h hv,
      by simp, .refl hheads⟩

/-- A block that is about to be executed waits no longer. -/
theorem getElem?_setIfInBounds_waits {dirty : Array Bool} :
    (dirty.setIfInBounds b.index false)[i]? = some true ↔ dirty[i]? = some true ∧ i ≠ b.index := by
  rw [Array.getElem?_setIfInBounds]
  split
  · rename_i hi
    split <;> simp [← hi]
  · rename_i hi
    simp [Ne.symm hi]

/-- What holds all along still holds after a block was executed and what is known at its end was
handed on. -/
theorem Round.Sound.visit (hvalid : g.validate = .ok ()) (hr : r.Sound g)
    (hb : b ∈ g.reversePostorder) {tail : AbstractState}
    (htail : r.state.replay g b = .ok tail) (hblocks : tail.blocks = r.state.blocks)
    (hsuccs : tail.valid = true → tail.flowingSuccessors g b = .ok succs)
    (hmem : ∀ v ∈ succs, v ∈ g.successors b)
    (hhands : Hands g limit succs { r with state := tail,
                                           dirty := r.dirty.setIfInBounds b.index false } r') :
                                             r'.Sound g := by
  have hordered := Graph.reversePostorder_ordered (Graph.validate_successorsExist hvalid)
    (Graph.validate_ok hvalid).1
  have hgrows : Grows r.state r'.state :=
    fun i facts h => hhands.grows i facts (by rw [hblocks]; exact h)
  constructor
  case heads => exact hhands.heads
  case dirtySize =>
    rw [hhands.dirtySize]
    simp [hr.dirtySize]
  case entry =>
    obtain ⟨facts, hfacts, hv⟩ := hr.entry
    obtain ⟨facts', hfacts', hv', -⟩ := hgrows _ _ hfacts
    exact ⟨facts', hfacts', hv' hv⟩
  case inOrder =>
    intro c hc
    rcases hhands.origin c hc with h | ⟨h, -⟩
    · exact hr.inOrder c (getElem?_setIfInBounds_waits.1 h).1
    · exact hordered.closed b hb c (hmem c h)
  case flows =>
    intro c facts hfacts hv
    rcases hhands.kept c.index with hwaits | hkept
    · exact .inl hwaits
    have hsame : r'.state.blocks[c.index]? = r.state.blocks[c.index]? :=
      hkept.trans (by rw [hblocks])
    by_cases hcb : c = b
    · -- the head of the block that was executed did not change, so that it would be executed the
      -- same way
      subst hcb
      have hreplay : r'.state.replay g c = (r.state.replay g c).map (withBlocks r'.state.blocks) :=
        replay_withBlocks (s := r.state) hsame
      rw [htail] at hreplay
      exact .inr ⟨_, hreplay, fun hvalid => ⟨succs, hsuccs hvalid, hhands.reached⟩⟩
    · rcases hr.flows c facts (hsame ▸ hfacts) hv with hwaits | hflows
      · have hne : c.index ≠ b.index := fun h => hcb (BlockIndex.eq_of_index h)
        exact .inl (hhands.waits _ (getElem?_setIfInBounds_waits.2 ⟨hwaits, hne⟩))
      · exact .inr (hflows.mono hgrows hsame)

theorem Hands.visits {tail : AbstractState} (hblocks : tail.blocks = r.state.blocks)
    (hhands : Hands g limit succs { r with state := tail,
                                           dirty := r.dirty.setIfInBounds b.index false } r') :
    Visits limit [b] r r' := by
  constructor
  case gives =>
    have hroom : tail.room limit = r.state.room limit := by rw [room, room, hblocks]
    rcases hhands.gives with hsame | ⟨hchanged, hless⟩
    · rw [hsame]
      exact .inl ⟨rfl, hroom⟩
    · exact .inr ⟨hchanged, by rw [← hroom]; exact hless⟩
  case origin =>
    intro i h
    rcases hhands.origin ⟨i⟩ h with h | ⟨-, h⟩
    · exact .inl (getElem?_setIfInBounds_waits.1 h).1
    · exact .inr h
  case settled =>
    intro c hc h
    rw [List.mem_singleton.1 hc] at h
    rcases hhands.origin b h with h | ⟨-, h⟩
    · exact absurd rfl (getElem?_setIfInBounds_waits.1 h).2
    · exact h

theorem visitBlock_visits (limit : Nat) (hvalid : g.validate = .ok ()) (hr : r.Sound g)
    (hb : b ∈ g.reversePostorder) {d : Dominators} (hd : d.isReachable b = true) :
    ∃ r', visitBlock g limit r b = .ok r' ∧ Guarded.visitBlock g d limit r b = .ok r' ∧ r'.Sound g ∧
      Visits limit [b] r r' := by
  by_cases hdirty : r.dirty[b.index]? = some true
  · obtain ⟨tail, succs, r', htail, hblocks, hvisit, hguarded, hsuccs, hmem, hhands⟩ :=
      visitBlock_hands limit hvalid hr hdirty hd
    exact ⟨r', hvisit, hguarded, hr.visit hvalid hb htail hblocks hsuccs hmem hhands,
      hhands.visits hblocks⟩
  · -- the block does not wait
    have hordered := Graph.reversePostorder_ordered (Graph.validate_successorsExist hvalid)
      (Graph.validate_ok hvalid).1
    have hlt : b.index < r.dirty.size := by
      rw [hr.dirtySize]
      exact hordered.range b hb
    obtain ⟨waits, hwaits, hread⟩ := Guarded.read_ok hlt
    obtain rfl : waits = false := by simpa [hwaits] using hdirty
    refine ⟨r, by rw [visitBlock, if_pos (by simpa using hdirty)]; rfl,
      by rw [Guarded.visitBlock, hread]; rfl, hr, .inl ⟨rfl, rfl⟩, fun i h => .inl h,
      fun c hc h => ?_⟩
    rw [List.mem_singleton.1 hc] at h
    exact absurd h hdirty

/-- A round is not interrupted. -/
theorem foldlM_visitBlock_visits (limit : Nat) (hvalid : g.validate = .ok ())
    {order : List BlockIndex} (hr : r.Sound g) (horder : ∀ b ∈ order, b ∈ g.reversePostorder)
    {d : Dominators} (hd : ∀ b ∈ order, d.isReachable b = true) :
    ∃ r', order.foldlM (visitBlock g limit) r = .ok r' ∧ order.foldlM (Guarded.visitBlock g d limit)
      r = .ok r' ∧ r'.Sound g ∧
      Visits limit order r r' := by
  induction order generalizing r with
  | nil => exact ⟨r, rfl, rfl, hr, .inl ⟨rfl, rfl⟩, fun i h => .inl h, by simp⟩
  | cons b order ih =>
    rw [List.forall_mem_cons] at horder hd
    obtain ⟨r₁, h₁, hguarded₁, hsound₁, hfirst⟩ := visitBlock_visits limit hvalid hr horder.1 hd.1
    obtain ⟨r', h', hguarded', hsound', hrest⟩ := ih hsound₁ horder.2 hd.2
    exact ⟨r', by rw [List.foldlM_cons, h₁]; exact h',
      by rw [List.foldlM_cons, hguarded₁]; exact hguarded', hsound', hfirst.trans hrest⟩

end AbstractState

namespace AbstractState

variable {g : Graph} {limit : Nat} {r : Round}

/-- With more rounds than there is to give up, the last one changes nothing, and no block waits any
longer. -/
theorem settle_postFixpoint (limit : Nat) (hvalid : g.validate = .ok ()) {d : Dominators}
    (hd : ∀ b ∈ g.reversePostorder, d.isReachable b = true) {rounds : Nat} (hr : r.Sound g)
    (hrounds : r.state.room limit < rounds) (count : Nat) :
    ∃ s k, settle g limit g.reversePostorder rounds r = .ok s ∧
      Guarded.settleFacts g d limit g.reversePostorder rounds count r = .ok (s, count + k) ∧
      k ≤ rounds ∧ PostFixpoint g s := by
  induction rounds generalizing r count with
  | zero => omega
  | succ rounds ih =>
    have hstart : Round.Sound g { r with changed := false } :=
      ⟨hr.heads, hr.dirtySize, hr.entry, hr.inOrder, hr.flows⟩
    obtain ⟨r₁, h₁, hguarded₁, hsound, hvisits⟩ :=
      foldlM_visitBlock_visits limit hvalid hstart (fun b hb => hb) hd
    rw [settle, Guarded.settleFacts, h₁, hguarded₁]
    by_cases hchanged : r₁.changed = true
    · have hless : r₁.state.room limit < r.state.room limit := by
        rcases hvisits.gives with ⟨hsame, -⟩ | ⟨-, hless⟩
        · rw [hchanged] at hsame
          cases hsame
        · exact hless
      obtain ⟨s, k, hsettle, hguarded, hk, hpost⟩ := ih hsound (by omega) (count + 1)
      simp only [bind, Except.bind, hchanged, ↓reduceIte]
      exact ⟨s, k + 1, hsettle,
        by rw [hguarded, Nat.add_right_comm, Nat.add_assoc], by omega, hpost⟩
    · simp only [bind, Except.bind, hchanged, Bool.false_eq_true, ↓reduceIte]
      refine ⟨r₁.state, 1, rfl, rfl, by omega, hsound.entry, fun b facts hfacts hv => ?_⟩
      refine (hsound.flows b facts hfacts hv).resolve_left fun hwaits => hchanged ?_
      exact hvisits.settled b (hsound.inOrder b hwaits) hwaits

/-- Nothing is known yet but that control enters at the first block. -/
def start (g : Graph) : Round where
  state :=
    { initial g with blocks := (initial g).blocks.modify 0 fun b => { b with visited := true } }
  dirty := (Array.replicate g.blocks.size false).setIfInBounds 0 true

theorem fixpoint_eq (g : Graph) (limit : Nat) :
    fixpoint g limit = settle g limit g.reversePostorder (maxRounds g limit) (start g) := rfl

theorem start_sound (hvalid : g.validate = .ok ()) : (start g).Sound g := by
  have hne := (Graph.validate_ok hvalid).1
  have hordered := Graph.reversePostorder_ordered (Graph.validate_successorsExist hvalid) hne
  have hhead (i : Nat) (facts : BlockFacts) (h : (start g).state.blocks[i]? = some facts) :
      facts.head = .empty g ∧ (facts.visited = true → i = 0) := by
    simp only [start, initial, Array.getElem?_modify, Array.getElem?_replicate] at h
    split at h
    · rename_i hi
      subst hi
      rw [if_pos hne] at h
      cases h
      exact ⟨rfl, fun _ => rfl⟩
    · split at h
      · cases h
        exact ⟨rfl, fun h => by cases h⟩
      · cases h
  have hdirty (i : Nat) (h : (start g).dirty[i]? = some true) : i = 0 := by
    simp only [start, Array.getElem?_setIfInBounds, Array.getElem?_replicate] at h
    split at h
    · rename_i hi
      exact hi.symm
    · split at h
      · cases h
      · cases h
  have hwaits : (start g).dirty[0]? = some true := by simp [start, hne]
  have hentry : (start g).state.blocks[0]? = some { head := .empty g, visited := true } := by
    simp only [start, initial, Array.getElem?_modify, Array.getElem?_replicate, hne, ↓reduceIte,
      Option.map_some]
  refine ⟨⟨by simp [start, initial], fun i facts h => ?_, fun i facts h => ?_⟩, by simp [start],
    ⟨{ head := .empty g, visited := true }, hentry, rfl⟩, fun b h => ?_,
    fun b facts h hv => .inl ?_⟩
  · rw [(hhead i facts h).1]
    exact Facts.about_empty g
  · rw [(hhead i facts h).1]
    exact Facts.possible_empty g
  · obtain ⟨rest, hrest⟩ := hordered.entry
    rw [BlockIndex.eq_of_index (show b.index = (⟨0⟩ : BlockIndex).index from hdirty _ h), hrest]
    exact List.mem_cons_self
  · rw [(hhead _ facts h).2 hv]
    exact hwaits

theorem room_start_lt (hvalid : g.validate = .ok ()) (limit : Nat) :
    (start g).state.room limit < maxRounds g limit := by
  calc (start g).state.room limit
    _ ≤ (1 + (limit + 67) * g.nodes.size) * g.blocks.size :=
      (start_sound hvalid).heads.room_le limit
    _ ≤ (1 + 2 * g.nodes.size * (limit + 68)) * g.blocks.size := by
      refine Nat.mul_le_mul_right _ (Nat.add_le_add_left ?_ 1)
      calc (limit + 67) * g.nodes.size ≤ (limit + 68) * (2
        * g.nodes.size) := Nat.mul_le_mul (by omega) (by omega)
        _ = 2 * g.nodes.size * (limit + 68) := Nat.mul_comm ..
    _ < maxRounds g limit := by
      rw [maxRounds, Nat.mul_comm]
      exact Nat.lt_succ_self _

end AbstractState

/-- The facts at all block heads, and the number of rounds that it takes. -/
def Guarded.fixpoint (g : Graph) (d : Dominators) (limit : Nat) :
    Except Interrupt (AbstractState × Nat) := do
  settleFacts g d limit (← reversePostorder g) (AbstractState.maxRounds g limit) 0
    (AbstractState.start g)

namespace AbstractState

variable {g g₀ : Graph}

/-- From the start the rounds come to an end, over the blocks that the dominator tree has. -/
theorem settle_start (hpredecessors : g₀.computePredecessors = .ok g) (hvalid : g.validate = .ok ())
    (limit : Nat) :
    ∃ s k, settle g limit g.reversePostorder (maxRounds g limit) (start g) = .ok s ∧
      Guarded.settleFacts g (Dominators.compute g) limit g.reversePostorder (maxRounds g limit) 0
        (start g) = .ok (s, k) ∧
      k ≤ maxRounds g limit ∧ PostFixpoint g s := by
  have hpresent :=
    (Dominators.compute_tree (Graph.validate_successorsExist hvalid) (Graph.validate_ok hvalid).1
    (Graph.computePredecessors_listed hpredecessors)).2.1
  have hsettle := settle_postFixpoint limit hvalid hpresent (start_sound hvalid)
    (room_start_lt hvalid limit) 0
  simpa only [Nat.zero_add] using hsettle

theorem guarded_fixpoint_eq (hvalid : g.validate = .ok ()) (d : Dominators) (limit : Nat) :
    Guarded.fixpoint g d limit =
    Guarded.settleFacts g d limit g.reversePostorder (maxRounds g limit) 0 (start g) := by
  rw [Guarded.fixpoint, Guarded.reversePostorder_eq (Graph.validate_successorsExist hvalid)
    (Graph.validate_lastExist hvalid)
    (Graph.validate_ok hvalid).1]
  rfl

/-- On every well-formed graph that knows its predecessors, and with sets of any size, the rounds
come to an end with one that changes nothing, and the facts that they end with are a post-fixpoint.
-/
theorem fixpoint_postFixpoint (hpredecessors : g₀.computePredecessors = .ok g)
    (hvalid : g.validate = .ok ()) (limit : Nat) :
    ∃ s k, fixpoint g limit = .ok s ∧ Guarded.fixpoint g (Dominators.compute g) limit = .ok (s, k) ∧
      k ≤ maxRounds g limit ∧
      PostFixpoint g s := by
  obtain ⟨s, k, hsettle, hguarded, hk, hpost⟩ := settle_start hpredecessors hvalid limit
  exact ⟨s, k, (fixpoint_eq g limit).trans hsettle, (guarded_fixpoint_eq hvalid _ limit).trans
    hguarded, hk, hpost⟩

/-- A loop that adds one to a number that starts with zero, until an argument is true. -/
def risingLoop : Graph where
  name := "risingLoop"
  nodes := #[
    { op := .getStack { operand := .arg 1, slot := .arg 1, format := .boolean },
      result := .boolean },
    { op := .jsConstant (.int32 0), result := .int32 },
    { op := .jsConstant (.int32 1), result := .int32 },
    { op := .upsilon ⟨5⟩, children := [{ node := ⟨1⟩ }] },
    { op := .jump ⟨1⟩ },
    { op := .phi, result := .int32 },
    { op := .arith .add .checkOverflow, children := [{ node := ⟨5⟩, useKind := .int32 },
      { node := ⟨2⟩, useKind := .int32 }],
      result := .int32 },
    { op := .upsilon ⟨5⟩, children := [{ node := ⟨6⟩ }] },
    { op := .branch { taken := ⟨2⟩, notTaken := ⟨1⟩ },
      children := [{ node := ⟨0⟩, useKind := .boolean }] },
    { op := .ret, children := [{ node := ⟨5⟩ }] }]
  blocks := #[{ index := ⟨0⟩, nodes := #[⟨0⟩, ⟨1⟩, ⟨2⟩, ⟨3⟩, ⟨4⟩] },
    { index := ⟨1⟩, nodes := #[⟨5⟩, ⟨6⟩, ⟨7⟩, ⟨8⟩], predecessors := [⟨0⟩, ⟨1⟩] },
    { index := ⟨2⟩, nodes := #[⟨9⟩], predecessors := [⟨1⟩] }]
  numArguments := 2
  numLocals := 0

/-- What is known of the number at the head of the loop in the end. -/
def risingFact : Except Fault (Option AbstractValue) :=
  (fixpoint risingLoop 1).map fun s => s.blocks[1]?.bind fun facts => facts.head.get? ⟨5⟩

/-- The loop is executed until no constant is left in it, and not all small numbers only. -/
theorem fixpoint_postFixpoint_risingLoop :
    risingLoop.validate = .ok () ∧ risingFact = .ok (some (.ofType .int32)) ∧
    ∃ s, fixpoint risingLoop 1 = .ok s ∧ PostFixpoint risingLoop s := by
  have hvalid : risingLoop.validate = .ok () := by decide +kernel
  have hpredecessors : risingLoop.computePredecessors = .ok risingLoop :=
    Graph.computePredecessors_eq (by decide +kernel) (by decide +kernel)
  obtain ⟨s, -, hfixpoint, -, -, hpost⟩ := fixpoint_postFixpoint hpredecessors hvalid 1
  exact ⟨hvalid, by decide +kernel, s, hfixpoint, hpost⟩

end AbstractState

end SpecJit
