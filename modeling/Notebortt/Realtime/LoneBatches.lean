import Notebortt.Concurrency.LoneOperations
import Notebortt.Mutations.BatchEquivalence
import Notebortt.Realtime.SocketBatches

/-! # Batches with nobody else at work

    A batch of `SocketBatches` goes command by command, and others may go on
    between its commands. When nobody does, it returns what `processBatch`
    returns, and leaves what `processBatch` leaves: a route's batch after
    `loadBoard`, a socket's batch without. -/

namespace Notebortt.SocketBatches

/-! ### What the reads show -/

/-- The parents that are missing, by what the context shows. -/
theorem mem_missingParents {Socket : Type} {b : Batch Socket} {context : Dict BoardElement}
    {id : String} :
    id ∈ b.missingParents context ↔
      ((∃ t e, context.lookup t = some e ∧ id ∈ parentIds e) ∨
        id ∈ collectReferencedMetaIds b.mutations) ∧ context.lookup id = none := by
  simp only [Batch.missingParents, List.mem_filter, mem_toSet, List.mem_append,
    mem_flatMap_parentIds, decide_eq_true_eq, AList.lookup_eq_none]

/-- The second read makes of the first the context that `createCachedBoardContext` returns. -/
theorem lookup_second_read {Socket : Type} {b : Batch Socket} {cfg : Config} {keys : BoardKeys}
    (hne : collectTouchedElementIds b.mutations ≠ []) {context : Dict BoardElement}
    (hcontext : ∀ id, context.lookup id =
      (fetchByIds cfg keys (collectTouchedElementIds b.mutations)).lookup id) (id : String) :
    (fetchByIds cfg keys (b.missingParents context) ∪ context).lookup id =
      (createCachedBoardContext cfg keys b.mutations).lookup id := by
  have hread : context.lookup id =
      if id ∈ collectTouchedElementIds b.mutations then readable cfg keys.elements.lookup id
      else none := by
    rw [hcontext, lookup_fetchByIds]
  have hmissing : id ∈ b.missingParents context ↔
      id ∈ (fetchByIds cfg keys (collectTouchedElementIds b.mutations)).entries.flatMap
          (fun entry => parentIds entry.2) ++ collectReferencedMetaIds b.mutations ∧
        context.lookup id = none := by
    simp only [mem_missingParents, List.mem_append, mem_flatMap_parentIds, hcontext]
  rw [lookup_context_of_touched cfg keys hne, Dict.lookup_union, lookup_fetchByIds]
  dsimp only
  generalize (fetchByIds cfg keys (collectTouchedElementIds b.mutations)).entries.flatMap
    (fun entry => parentIds entry.2) ++ collectReferencedMetaIds b.mutations = more at hmissing ⊢
  by_cases htouched : id ∈ collectTouchedElementIds b.mutations
  · rw [if_pos htouched] at hread
    rw [if_pos (Or.inl htouched : id ∈ collectTouchedElementIds b.mutations ∨ id ∈ more), hread]
    split
    · cases readable cfg keys.elements.lookup id <;> rfl
    · rfl
  · rw [if_neg htouched] at hread
    simp [hmissing, hread, htouched]

/-! ### Runs of one flow -/

/-- The labels of a flow with nobody else at work. -/
inductive Own {Socket P : Type} (boardId : String) (p : P) (now : Nat) :
    Label Socket P → Prop where
  | ask : Own boardId p now (.ask p)
  | go : Own boardId p now (.go p)
  | board {evicts : Bool} {l : BoardCommands.Label P} :
      BoardCommands.Own boardId p now evicts l → Own boardId p now (.board l)

@[simp] theorem State.setFlow_self {Socket P : Type} [DecidableEq P] (s : State Socket P) (p : P)
    (f : Flow Socket) : (s.setFlow p f).flow p = f := by
  simp [State.setFlow]

section alone
variable {Socket P : Type} [DecidableEq Socket] [DecidableEq P]

/-- The flow goes on by itself. -/
def Alone (cfg : Config) (boardId : String) (p : P) (now : Nat) :
    State Socket P → State Socket P → Prop :=
  Relation.ReflTransGen fun s s' => ∃ l, Own boardId p now l ∧ step cfg boardId s l = some s'

/-- What the flow finds while it runs no operation and both locks are free. -/
structure Stands (p : P) (keys : BoardKeys) (db : Postgres) (f : Flow Socket)
    (s : State Socket P) : Prop where
  board : BoardCommands.Stands p keys db none none .idle s.board
  flow : s.flow p = f

/-- The flow comes as far as `f`, and leaves the presence keys alone. -/
def Leads (cfg : Config) (boardId : String) (p : P) (now : Nat) (keys : BoardKeys) (db : Postgres)
    (f : Flow Socket) (s : State Socket P) : Prop :=
  ∃ s', Alone cfg boardId p now s s' ∧ Stands p keys db f s' ∧ s'.presence = s.presence

variable {cfg : Config} {boardId : String} {p : P} {now : Nat} {s s' : State Socket P}
  {keys keys' : BoardKeys} {db db' : Postgres} {f f' : Flow Socket} {b : Batch Socket}

theorem Leads.refl (h : Stands p keys db f s) : Leads cfg boardId p now keys db f s :=
  ⟨s, Relation.ReflTransGen.refl, h, rfl⟩

theorem Leads.after (halone : Alone cfg boardId p now s s') (hpresence : s'.presence = s.presence)
    (h : Leads cfg boardId p now keys db f s') : Leads cfg boardId p now keys db f s := by
  obtain ⟨s₁, hrest, hstands, hkept⟩ := h
  exact ⟨s₁, halone.trans hrest, hstands, hkept.trans hpresence⟩

theorem Leads.trans (h : Leads cfg boardId p now keys db f s)
    (hrest : ∀ s', Stands p keys db f s' → Leads cfg boardId p now keys' db' f' s') :
    Leads cfg boardId p now keys' db' f' s := by
  obtain ⟨s₁, halone, hstands, hpresence⟩ := h
  exact .after halone hpresence (hrest s₁ hstands)

theorem Leads.head {l : Label Socket P} (hl : Own boardId p now l)
    (hstep : step cfg boardId s l = some s') (hpresence : s'.presence = s.presence)
    (h : Leads cfg boardId p now keys db f s') : Leads cfg boardId p now keys db f s :=
  .after (Relation.ReflTransGen.single ⟨l, hl, hstep⟩) hpresence h

/-- A step of the batch by itself. -/
theorem leads_go (h : Stands p keys db (.batch b) s) {b' : Batch Socket}
    (hgo : goBatch cfg boardId s p b = some (s.setFlow p (.batch b'))) :
    Leads cfg boardId p now keys db (.batch b') s := by
  have hstep : step cfg boardId s (.go p) = some (s.setFlow p (.batch b')) := by
    simp only [step, go, h.flow, hgo]
  exact .head .go hstep rfl (.refl ⟨h.board, State.setFlow_self ..⟩)

/-- A question, and its answer. -/
theorem leads_ask (h : Stands p keys db (.batch b) s) {q : Question}
    (hq : b.question cfg = some q) :
    Leads cfg boardId p now (q.exec keys) db (.batch (b.hear cfg (answer cfg keys q))) s := by
  have hstep : step cfg boardId s (.ask p) =
      some { s.setFlow p (.batch (b.hear cfg (answer cfg keys q))) with
        board := { s.board with keys := q.exec keys }
        asked := s.noteAsked cfg p } := by
    simp only [step, ask, h.flow, hq, h.board.keys]
  refine .head .ask hstep rfl (.refl ⟨⟨rfl, h.board.db, h.board.loadLock, h.board.evictionLock,
    h.board.run⟩, ?_⟩)
  simp [State.setFlow]

/-! ### Operations of a flow -/

theorem noted_of_evicting {change : Option PersistedElementChange}
    {board board' : BoardCommands.State P} {l : BoardCommands.Label P}
    (hl : (∃ page, l = .scanPage p page) ∨ l = .del p)
    (hstep : BoardCommands.step cfg boardId board l = some board') :
    BoardCommands.noted change (board'.run p) = change := by
  rcases hl with ⟨page, rfl⟩ | rfl
  all_goals
    simp only [BoardCommands.step] at hstep
    split at hstep
    · obtain rfl := Option.some.inj hstep
      rw [BoardCommands.State.setRun_self]
      rfl
    · cases hstep

/-- An operation of the board goes on in its flow, which follows the change it notes. -/
theorem step_board (g : Option PersistedElementChange → Flow Socket)
    (hg : ∀ change r, (g change).note r = g (BoardCommands.noted change r)) {evicts : Bool}
    {change : Option PersistedElementChange} (hflow : s.flow p = g change)
    {l : BoardCommands.Label P} (hl : BoardCommands.Own boardId p now evicts l)
    {board : BoardCommands.State P}
    (hstep : BoardCommands.step cfg boardId s.board l = some board) :
    ∃ s', step cfg boardId s (.board l) = some s' ∧ s'.board = board ∧
      s'.flow p = g (BoardCommands.noted change (board.run p)) ∧
      (evicts = false → s'.presence = s.presence) := by
  cases hl with
  | command =>
    simp only [step, boardStep, hstep, Option.map_some, Option.some.injEq, exists_eq_left']
    refine ⟨trivial, ?_, fun _ => rfl⟩
    simp [State.setFlow, hflow, hg]
  | scanPage =>
    simp only [step, boardStep, hstep, Option.map_some, Option.some.injEq, exists_eq_left']
    exact ⟨trivial, by rw [hflow, noted_of_evicting (.inl ⟨_, rfl⟩) hstep], fun _ => trivial⟩
  | del =>
    simp only [step, boardStep, hstep, Option.map_some, Option.some.injEq, exists_eq_left']
    exact ⟨trivial, by rw [hflow, noted_of_evicting (.inr rfl) hstep], fun h => absurd h (by simp)⟩

/-- An operation of the board goes on to where it goes by itself. -/
theorem alone_board (g : Option PersistedElementChange → Flow Socket)
    (hg : ∀ change r, (g change).note r = g (BoardCommands.noted change r)) {evicts : Bool}
    {change : Option PersistedElementChange} (hflow : s.flow p = g change)
    {y : Option PersistedElementChange × BoardCommands.State P}
    (h : BoardCommands.Alone cfg boardId p now evicts (change, s.board) y) :
    ∃ s', Alone cfg boardId p now s s' ∧ s'.board = y.2 ∧ s'.flow p = g y.1 ∧
      (evicts = false → s'.presence = s.presence) := by
  induction h with
  | refl => exact ⟨s, Relation.ReflTransGen.refl, rfl, hflow, fun _ => rfl⟩
  | tail _ hstep ih =>
    obtain ⟨s₁, halone, hboard, hflow₁, hpresence⟩ := ih
    obtain ⟨l, hl, hstep, hnoted⟩ := hstep
    rw [← hboard] at hstep
    obtain ⟨s₂, hstep₂, hboard₂, hflow₂, hpresence₂⟩ := step_board g hg hflow₁ hl hstep
    refine ⟨s₂, halone.tail ⟨_, .board hl, hstep₂⟩, hboard₂, ?_, fun hevicts => ?_⟩
    · rw [hflow₂, hnoted]
    · rw [hpresence₂ hevicts, hpresence hevicts]

/-- An operation that the flow starts, up to its end. -/
theorem alone_started (g : Option PersistedElementChange → Flow Socket)
    (hg : ∀ change r, (g change).note r = g (BoardCommands.noted change r)) {evicts : Bool}
    {change change' : Option PersistedElementChange} (bl : BoardCommands.Label P)
    {run : BoardCommands.Run} (h : Stands p keys db f s)
    (hstart : BoardCommands.step cfg boardId s.board bl = s.board.start p run)
    (hends : ∀ board, BoardCommands.Stands p keys db none none run board →
      BoardCommands.Ends cfg boardId p now evicts change change' keys' db' board) :
    ∃ s₁, s.start cfg boardId p (g change) bl = some s₁ ∧
      ∃ s', Alone cfg boardId p now s₁ s' ∧ Stands p keys' db' (g change') s' ∧
        (evicts = false → s'.presence = s.presence) := by
  have hstarted : s.board.start p run = some (s.board.setRun p run) := by
    rw [BoardCommands.State.start, h.board.run]
  obtain ⟨s₁, hstep₁, hboard₁, hflow₁, hpresence₁⟩ : ∃ s₁,
      s.start cfg boardId p (g change) bl = some s₁ ∧ s₁.board = s.board.setRun p run ∧
        s₁.flow p = g change ∧ s₁.presence = s.presence := by
    rw [State.start, hstart, hstarted, Option.map_some]
    exact ⟨_, rfl, rfl, by simp [State.setFlow], rfl⟩
  obtain ⟨board, halone, hstands⟩ := hends _ (h.board.setRun run)
  rw [← hboard₁] at halone
  obtain ⟨s', halone', rfl, hflow, hpresence⟩ := alone_board g hg hflow₁ halone
  refine ⟨s₁, hstep₁, s', halone', ⟨hstands, hflow⟩, fun hevicts => ?_⟩
  rw [hpresence hevicts, hpresence₁]

/-! ### One mutation -/

/-- The batch with the result of one more mutation. -/
def Batch.took (b : Batch Socket) (processed : Processed) : Batch Socket :=
  { b with
    context := applyPersistedChangeToContext b.context processed.result
    results := b.results ++ [processed.result] }

section mutation
variable {m : Mutation} {rest : List Mutation}

omit [DecidableEq Socket] [DecidableEq P] in
theorem note_applying (b : Batch Socket) (change : Option PersistedElementChange)
    (r : BoardCommands.Run) :
    ({ b with run := .applying m change rest } : Batch Socket).note r =
      { b with run := .applying m (BoardCommands.noted change r) rest } := by
  cases r with
  | apply call r => cases r <;> rfl
  | _ => rfl

/-- The change set of a mutation is applied. -/
theorem leads_changing (h : Stands p keys db (.batch { b with run := .changing m rest }) s) :
    Leads cfg boardId p now ((b.call m).run now keys).2 db
      (.batch { b with run := .applying m ((b.call m).run now keys).1 rest }) s := by
  obtain ⟨s₁, hstart, s', halone, hstands, hpresence⟩ := alone_started
    (fun change => .batch { b with run := .applying m change rest })
    (fun change r => congrArg Flow.batch (note_applying b change r)) (.applyChangeSet p (b.call m))
    h rfl
    (fun board h => (BoardCommands.ends_applyChangeSet h :
      BoardCommands.Ends cfg boardId p now false none _ _ db board))
  have hstep : step cfg boardId s (.go p) = some s₁ := by
    simp only [step, go, h.flow, goBatch]
    exact hstart
  exact ⟨s', halone.head ⟨_, .go, hstep⟩, hstands, hpresence rfl⟩

/-- A mutation that changes nothing reads the sequence for its result. -/
theorem leads_peeking (h : Stands p keys db (.batch { b with run := .peeking m rest }) s) :
    Leads cfg boardId p now keys db
      (.batch { b with
        results := b.results ++ [(unchangedResult m keys).result]
        run := .mutating rest }) s :=
  leads_ask h (q := .sequence) rfl

/-- `applyChangeSet` has returned. -/
theorem leads_applied {change : Option PersistedElementChange}
    (h : Stands p keys db (.batch { b with run := .applying m change rest }) s) :
    Leads cfg boardId p now keys db
      (.batch (({ b with run := .applying m change rest } : Batch Socket).applied m change rest))
      s := by
  refine leads_go h ?_
  simp only [goBatch, State.free, h.board.run, if_true]

/-- A mutation whose marker is claimed. -/
theorem leads_claimed
    (h : Stands p keys db (.batch (({ b with run := .mutating (m :: rest) } : Batch Socket).hear cfg
      (.claimed true))) s) :
    let processed := processClaimed now m b.context b.mode keys
    Leads cfg boardId p now processed.keys db
      (.batch { b.took processed with run := .mutating rest }) s := by
  unfold processClaimed
  simp only [Batch.hear, Bool.not_true, Bool.false_eq_true, if_false] at h
  by_cases hblocked : isMutationBlockedByLock m.operation b.context.lookup = true
  · simp only [hblocked, if_true] at h ⊢
    exact leads_peeking h
  by_cases hrejected : (validateReconcileMonthRange m.operation b.context.lookup).isSome = true
  · simp only [hblocked, hrejected, if_true, if_false, Bool.false_eq_true] at h ⊢
    exact leads_peeking h
  simp only [hblocked, hrejected, if_false, Bool.false_eq_true] at h ⊢
  refine (leads_changing h).trans fun s₁ h₁ => ?_
  have hcall : (b.call m).run now keys =
      applyChangeSet (b.mode = .collab) now (toChangeSet b.context.lookup m.operation) keys :=
    ApplyCall.run_eq_applyChangeSet _ _ _ _
  rw [hcall] at h₁
  cases happlied : applyChangeSet (b.mode = .collab) now (toChangeSet b.context.lookup m.operation)
      keys with
  | mk change applied =>
    rw [happlied] at h₁
    cases change with
    | none => exact (leads_applied h₁).trans fun s₂ h₂ => leads_peeking h₂
    | some change => exact leads_applied h₁

/-- One mutation of a batch is `processMutationWithContext`. -/
theorem leads_mutation (h : Stands p keys db (.batch { b with run := .mutating (m :: rest) }) s) :
    let processed := processMutationWithContext now m b.context b.mode keys
    Leads cfg boardId p now processed.keys db
      (.batch { b.took processed with run := .mutating rest }) s := by
  unfold processMutationWithContext
  by_cases htransient : m.isTransient = true
  · simp only [htransient, if_true]
    refine leads_go h ?_
    simp only [goBatch, htransient, if_true]
    rfl
  simp only [htransient, if_false, Bool.false_eq_true]
  have hask : Leads cfg boardId p now (tryMarkSeen m.mutationId keys).2 db
      (.batch (({ b with run := .mutating (m :: rest) } : Batch Socket).hear cfg
        (.claimed (tryMarkSeen m.mutationId keys).1))) s :=
    leads_ask h (q := .claim m.mutationId) (by simp [Batch.question, htransient])
  cases hseen : tryMarkSeen m.mutationId keys with
  | mk first marked =>
    rw [hseen] at hask
    cases first with
    | false => exact hask
    | true => exact hask.trans fun s₁ h₁ => leads_claimed h₁

/-- The mutations of a batch, one after the other: `processEntries`. -/
theorem leads_entries (cfg : Config) (boardId : String) (now : Nat)
    {entries : List (Nat × Mutation)} :
    ∀ {b : Batch Socket} {keys : BoardKeys} {s : State Socket P},
      Stands p keys db (.batch { b with run := .mutating (entries.map (·.2)) }) s →
      let loop := processEntries now b.mode entries b.context keys
      ∃ context, Leads cfg boardId p now loop.2.2 db
        (.batch { b with
          context := context
          results := b.results ++ loop.1.map (·.2)
          run := .mutating [] }) s := by
  induction entries with
  | nil =>
    intro b keys s h
    refine ⟨b.context, .refl ?_⟩
    simpa [processEntries] using h
  | cons entry rest ih =>
    intro b keys s h
    obtain ⟨s₁, halone, hstands, hpresence⟩ := leads_mutation h
    obtain ⟨context, hrest⟩ := ih hstands
    refine ⟨context, .after halone hpresence ?_⟩
    simpa [processEntries, Batch.took] using hrest

end mutation

/-! ### The reads -/

section context
variable {mutations : List Mutation} {sender : Option Socket}

/-- The reads of some ids, in one command or one after the other, add to the context what one fetch
    reads. -/
theorem leads_reading (reads : List String → BatchRun) (next : Dict BoardElement → BatchRun)
    (hquestion : ∀ context ids, ({ b with context := context, run := reads ids } :
      Batch Socket).question cfg = some (.elements (Batch.nextIds cfg ids)))
    (hhear : ∀ context ids found, ({ b with context := context, run := reads ids } :
      Batch Socket).hear cfg (.elements found) =
        { b with
          context := found ∪ context
          run :=
            let left := ids.drop (Batch.nextIds cfg ids).length
            if left.isEmpty then next (found ∪ context) else reads left })
    {ids : List String} (hne : ids ≠ []) (context : Dict BoardElement) {s : State Socket P}
    (h : Stands p keys db (.batch { b with context := context, run := reads ids }) s) :
    ∃ context', (∀ id, context'.lookup id = (fetchByIds cfg keys ids ∪ context).lookup id) ∧
      Leads cfg boardId p now keys db (.batch { b with context := context', run := next context' })
        s := by
  -- a question, and what it leaves to read
  have hread : ∀ {ids : List String} {context : Dict BoardElement} {s : State Socket P},
      Stands p keys db (.batch { b with context := context, run := reads ids }) s →
      Leads cfg boardId p now keys db (.batch { b with
        context := fetchByIds cfg keys (Batch.nextIds cfg ids) ∪ context
        run :=
          let left := ids.drop (Batch.nextIds cfg ids).length
          if left.isEmpty then next (fetchByIds cfg keys (Batch.nextIds cfg ids) ∪ context)
          else reads left }) s := by
    intro ids context s h
    rw [← hhear]
    exact leads_ask h (hquestion context ids)
  by_cases htargeted : cfg.enableTargetedMutationReads = true
  · refine ⟨_, fun _ => rfl, ?_⟩
    have hall := hread h
    simpa [Batch.nextIds, htargeted] using hall
  · induction ids generalizing context s with
    | nil => exact absurd rfl hne
    | cons id rest ih =>
      have hone := hread h
      have hids : Batch.nextIds cfg (id :: rest) = [id] := by
        simp [Batch.nextIds, htargeted]
      simp only [hids, List.length_singleton, List.drop_succ_cons, List.drop_zero] at hone
      by_cases hrest : rest = []
      · subst hrest
        exact ⟨_, fun _ => rfl, hone⟩
      · rw [if_neg (by simpa [List.isEmpty_iff] using hrest)] at hone
        obtain ⟨s₁, halone, hstands, hpresence⟩ := hone
        obtain ⟨context', hlookup, hleads⟩ := ih hrest _ hstands
        refine ⟨context', fun k => ?_, .after halone hpresence hleads⟩
        -- two reads of one id agree
        rw [hlookup k]
        simp only [Dict.lookup_union, lookup_fetchByIds, List.mem_cons, List.not_mem_nil, or_false]
        generalize readable cfg keys.elements.lookup k = element
        by_cases hmem : k ∈ rest
        · rcases eq_or_ne k id with rfl | hk
          · cases element <;> simp [hmem]
          · simp [hk, hmem]
        · simp [hmem]

theorem leads_fetching (cfg : Config) (boardId : String) (now : Nat) {ids : List String}
    (hne : ids ≠ []) {context : Dict BoardElement}
    (h : Stands p keys db (.batch { b with context := context, run := .fetching ids }) s) :
    ∃ context', (∀ id, context'.lookup id = (fetchByIds cfg keys ids ∪ context).lookup id) ∧
      Leads cfg boardId p now keys db
        (.batch { b with
          context := context'
          run := if (b.missingParents context').isEmpty then .asksMode
            else .fetchingParents (b.missingParents context') }) s := by
  refine leads_reading .fetching (fun context =>
    if (b.missingParents context).isEmpty then .asksMode
    else .fetchingParents (b.missingParents context)) (fun _ _ => rfl) ?_ hne context h
  intro context ids found
  simp only [Batch.hear]
  cases (ids.drop (Batch.nextIds cfg ids).length).isEmpty <;> rfl

theorem leads_fetchingParents {ids : List String} (hne : ids ≠ []) {context : Dict BoardElement}
    (h : Stands p keys db (.batch { b with context := context, run := .fetchingParents ids }) s) :
    ∃ context', (∀ id, context'.lookup id = (fetchByIds cfg keys ids ∪ context).lookup id) ∧
      Leads cfg boardId p now keys db (.batch { b with context := context', run := .asksMode })
        s :=
  leads_reading .fetchingParents (fun _ => .asksMode) (fun _ _ => rfl) (fun _ _ _ => rfl) hne
    context h

/-- A batch reads its context as `createCachedBoardContext` does. -/
theorem leads_context (h : Stands p keys db (.batch (.begin sender mutations)) s) :
    ∃ context, (∀ id, context.lookup id =
        (createCachedBoardContext cfg keys mutations).lookup id) ∧
      Leads cfg boardId p now keys db
        (.batch { Batch.begin sender mutations with context := context, run := .asksMode }) s := by
  by_cases hnone : collectTouchedElementIds mutations = []
  · refine ⟨∅, fun _ => by simp [createCachedBoardContext, hnone], .refl ?_⟩
    simpa [Batch.begin, hnone] using h
  have hbegin : Batch.begin sender mutations =
      { Batch.begin sender mutations with
        context := ∅, run := .fetching (collectTouchedElementIds mutations) } := by
    simp [Batch.begin, hnone]
  rw [hbegin] at h
  obtain ⟨context₁, hlookup₁, hleads₁⟩ := leads_fetching cfg boardId now hnone h
  have hcontext₁ : ∀ id, context₁.lookup id =
      (fetchByIds cfg keys (collectTouchedElementIds mutations)).lookup id := by
    intro id
    rw [hlookup₁, Dict.lookup_union]
    simp
  have hsecond : ∀ id, (fetchByIds cfg keys ((Batch.begin sender mutations).missingParents context₁)
      ∪ context₁).lookup id = (createCachedBoardContext cfg keys mutations).lookup id :=
    lookup_second_read (b := .begin sender mutations) hnone hcontext₁
  by_cases hparents : (Batch.begin sender mutations).missingParents context₁ = []
  · refine ⟨context₁, fun id => ?_, ?_⟩
    · have hread := hsecond id
      rw [hparents, Dict.lookup_union, lookup_fetchByIds] at hread
      simpa using hread
    · simpa [hparents] using hleads₁
  · simp only [List.isEmpty_iff, hparents, if_false] at hleads₁
    obtain ⟨s₁, halone, hstands, hpresence⟩ := hleads₁
    obtain ⟨context₂, hlookup₂, hleads₂⟩ := leads_fetchingParents hparents hstands
    exact ⟨context₂, fun id => (hlookup₂ id).trans (hsecond id), .after halone hpresence hleads₂⟩

end context

/-! ### Whole batches -/

/-- `getSyncWriteMode` of the batch. -/
theorem alone_asksMode (h : Stands p keys db (.batch { b with run := .asksMode }) s) :
    ∃ s', Alone cfg boardId p now s s' ∧ Stands p keys db (.batch { b with
      mode := (PresenceDomain.getSyncWriteMode s.presence).1
      run := .mutating b.mutations }) s' := by
  have hstep : step cfg boardId s (.go p) =
      some { s.setFlow p (.batch { b with
        mode := (PresenceDomain.getSyncWriteMode s.presence).1, run := .mutating b.mutations }) with
        presence := (PresenceDomain.getSyncWriteMode s.presence).2 } := by
    simp only [step, go, h.flow, goBatch]
  exact ⟨_, Relation.ReflTransGen.single ⟨_, .go, hstep⟩, h.board, by simp [State.setFlow]⟩

/-- The batch returns by itself with what `processBatch` returns, or it throws, and leaves what
    `processBatch` leaves. -/
def Returns (cfg : Config) (boardId : String) (p : P) (now : Nat)
    (returned : Except QueryError (List (Option MutationResult)) × Server) (s : State Socket P) :
    Prop :=
  ∃ s₁ b s₂, Alone cfg boardId p now s s₁ ∧ s₁.flow p = .batch b ∧
    (match returned.1 with
      | .ok results => results = b.results.map some ∧ step cfg boardId s₁ (.go p) = some s₂
      | .error _ => step cfg boardId s₁ (.fails p) = some s₂) ∧
    Stands p (returned.2.redis boardId) returned.2.db .idle s₂

theorem Returns.after {returned : Except QueryError (List (Option MutationResult)) × Server}
    (halone : Alone cfg boardId p now s s') (h : Returns cfg boardId p now returned s') :
    Returns cfg boardId p now returned s := by
  obtain ⟨s₁, b, s₂, halone₁, hrest⟩ := h
  exact ⟨s₁, b, s₂, halone.trans halone₁, hrest⟩

/-- The last step of a batch that is through with its mutations. -/
theorem returns_end {server : Server} {run : BatchRun}
    (h : Stands p (server.redis boardId) server.db (.batch { b with run := run }) s)
    (hgo : goBatch cfg boardId s p { b with run := run } = some (endBatch s p b.mode)) :
    Returns cfg boardId p now (.ok (b.results.map some), server) s := by
  have hstep : step cfg boardId s (.go p) = some (endBatch s p b.mode) := by
    simp only [step, go, h.flow, hgo]
  exact ⟨s, _, _, Relation.ReflTransGen.refl, h.flow, ⟨rfl, hstep⟩, h.board,
    by simp [endBatch, State.setFlow]⟩

/-- The write-through of solo mode, and the end. -/
theorem returns_written (cfg : Config) (now : Nat) {server : Server}
    (h : Stands p (server.redis boardId) server.db (.batch { b with run := .mutating [] }) s) :
    let written := persistIfSolo cfg b.mode now boardId b.changed server
    Returns cfg boardId p now
      (match written.1 with
        | some e => (.error e, written.2)
        | none => (.ok (b.results.map some), written.2)) s := by
  unfold persistIfSolo
  by_cases hwrites : (b.mode = .solo && b.changed) = true
  · rw [if_pos hwrites]
    obtain ⟨s₀, hstart, s₁, halone, hstands, _⟩ := alone_started
      (fun _ => .batch { b with run := .persisting }) (fun _ _ => rfl) (.persistBoard p) h rfl
      (fun board h => (BoardCommands.ends_persistBoard h :
        BoardCommands.Ends cfg boardId p now true none none _ _ board))
    have hstep : step cfg boardId s (.go p) = some s₀ := by
      simp only [step, go, h.flow, goBatch]
      exact (if_pos hwrites).trans hstart
    refine .after (halone.head ⟨_, .go, hstep⟩) ?_
    have hfree : s₁.free p = true := by simp [State.free, hstands.board.run]
    cases hthrows : (persistBoard cfg now boardId server).1 with
    | none =>
      refine returns_end hstands ?_
      simp only [goBatch, hfree, if_true]
    | some e =>
      have hfails : step cfg boardId s₁ (.fails p) = some (s₁.setFlow p .idle) := by
        simp only [step, hfree, if_true]
      exact ⟨s₁, _, _, Relation.ReflTransGen.refl, hstands.flow, hfails, hstands.board,
        State.setFlow_self ..⟩
  · rw [if_neg hwrites]
    refine returns_end h ?_
    simp only [goBatch]
    exact if_neg hwrites

/-- A batch is `processBatch`. -/
theorem returns_batch {mutations : List Mutation} {sender : Option Socket} {server : Server}
    (hne : mutations ≠ []) (hboard : ∀ m ∈ mutations, m.boardId = boardId)
    (h : Stands p (server.redis boardId) server.db (.batch (.begin sender mutations)) s) :
    Returns cfg boardId p now
      (processBatch cfg (fun _ => (PresenceDomain.getSyncWriteMode s.presence).1) now mutations
        server) s := by
  obtain ⟨context, hcontext, s₁, halone₁, hstands₁, hpresence⟩ :
      ∃ context, _ ∧ Leads cfg boardId p now _ _ _ s := leads_context h
  obtain ⟨s₂, halone₂, hstands₂⟩ : ∃ s₂, Alone cfg boardId p now s₁ s₂ ∧ _ :=
    alone_asksMode (b := { Batch.begin sender mutations with context := context }) hstands₁
  rw [hpresence] at hstands₂
  generalize (PresenceDomain.getSyncWriteMode s.presence).1 = mode at hstands₂ ⊢
  -- the loop, over the context that was read
  rw [processBatch_single cfg mode now hboard hne]
  simp only [← processEntries_context_congr now mode (entriesOf mutations) hcontext]
  have hentries : Stands p (server.redis boardId) server.db (.batch
      { ({ Batch.begin sender mutations with context := context, mode := mode } : Batch Socket) with
        run := .mutating ((entriesOf mutations).map (·.2)) }) s₂ := by
    rw [map_entriesOf]
    exact hstands₂
  obtain ⟨context', s₃, halone₃, hstands₃, _⟩ := leads_entries cfg boardId now hentries
  refine .after (halone₁.trans (halone₂.trans halone₃)) ?_
  have hchanged := processEntries_changed now mode (entriesOf mutations) context
    (server.redis boardId)
  generalize processEntries now mode (entriesOf mutations) context (server.redis boardId) = loop
    at hstands₃ hchanged ⊢
  have hthrough : Stands p ((server.setKeys boardId loop.2.2).redis boardId)
      (server.setKeys boardId loop.2.2).db (.batch
        { ({ Batch.begin sender mutations with
          context := context', mode := mode, results := loop.1.map (·.2) } : Batch Socket) with
          run := .mutating [] }) s₃ := by
    rw [Server.setKeys_redis_self, Server.setKeys_db]
    exact hstands₃
  have hwritten := returns_written cfg now hthrough
  simp only [Batch.changed, List.any_map, List.map_map, Function.comp_def] at hwritten
  rw [hchanged]
  exact hwritten

/-- With nobody else at work, a route's batch is `processBatch` after `loadBoard`, and a socket's
    batch is `processBatch`. -/
theorem batch_isProcessBatch (cfg : Config) (boardId : String) (p : P) (now : Nat)
    {s : State Socket P} {server : Server} {mutations : List Mutation} (hne : mutations ≠ [])
    (hboard : hasConsistentBatchBoardId boardId mutations = true)
    (h : Stands p (server.redis boardId) server.db .idle s) :
    let mode := (PresenceDomain.getSyncWriteMode s.presence).1
    (∃ s', step cfg boardId s (.post p mutations) = some s' ∧
      Returns cfg boardId p now
        (processBatch cfg (fun _ => mode) now mutations (loadBoard boardId server)) s') ∧
    ∀ x, mutations.length ≤ MAX_MUTATION_BATCH → s.joined x = some .edit →
      ∃ s', step cfg boardId s (.send x p mutations) = some s' ∧
        Returns cfg boardId p now (processBatch cfg (fun _ => mode) now mutations server) s' := by
  have hall : ∀ m ∈ mutations, m.boardId = boardId := by
    simpa [hasConsistentBatchBoardId] using hboard
  have hready : s.ready p = true := by
    simp only [State.ready, h.flow, State.free, h.board.run]
  have hempty : mutations.isEmpty = false := by
    simpa [List.isEmpty_iff] using hne
  constructor
  · obtain ⟨s₁, hstart, s₂, halone, hstands, hpresence⟩ := alone_started
      (fun _ => .loading mutations) (fun _ _ => rfl) (.loadBoard p) h rfl
      (fun board h => (BoardCommands.ends_loadBoard h :
        BoardCommands.Ends cfg boardId p now false none none _ _ board))
    refine ⟨s₁, ?_, ?_⟩
    · simpa [step, hempty, hboard, hready] using hstart
    have hbegins : step cfg boardId s₂ (.go p) =
        some (s₂.setFlow p (.batch (.begin none mutations))) := by
      simp [step, go, hstands.flow, State.free, hstands.board.run]
    refine .after (halone.tail ⟨_, .go, hbegins⟩) ?_
    rw [← hpresence rfl]
    exact returns_batch hne hall ⟨hstands.board, State.setFlow_self ..⟩
  · intro x hshort hjoined
    refine ⟨s.setFlow p (.batch (.begin (some x) mutations)), ?_, ?_⟩
    · simp [step, hempty, hboard, hready, hjoined, Nat.not_lt.mpr hshort]
    · exact returns_batch hne hall ⟨h.board, State.setFlow_self ..⟩

end alone

/-- The board of the runs above is not loaded. -/
def unloadedServer : Server := ⟨fun _ => {}, start.board.db⟩

def reorderNote : List Mutation :=
  [⟨"m", "aaaaaaaa-aaaa-4aaa-8aaa-aaaaaaaaaaaa", .reorderElement "x" 1⟩]

/-- A route's batch brings the note to the front, a socket's batch finds no note. -/
theorem batch_isProcessBatch_unloaded :
    let boardId := "aaaaaaaa-aaaa-4aaa-8aaa-aaaaaaaaaaaa"
    let s : State Unit Unit := { start with joined := fun _ => some .edit }
    (∃ s', step {} boardId s (.post () reorderNote) = some s' ∧ Returns {} boardId () 0
      (processBatch {} (fun _ => .solo) 0 reorderNote (loadBoard boardId unloadedServer)) s') ∧
    (∃ s', step {} boardId s (.send () () reorderNote) = some s' ∧ Returns {} boardId () 0
      (processBatch {} (fun _ => .solo) 0 reorderNote unloadedServer) s') ∧
    (∃ results, (processBatch {} (fun _ => .solo) 0 reorderNote
      (loadBoard boardId unloadedServer)).1 = .ok results ∧
      results.map (·.map (·.change.isSome)) = [some true]) ∧
    ∃ results, (processBatch {} (fun _ => .solo) 0 reorderNote unloadedServer).1 = .ok results ∧
      results.map (·.map (·.change.isSome)) = [some false] := by
  refine ⟨?_, ?_, ⟨_, rfl, rfl⟩, ⟨_, rfl, rfl⟩⟩
  · exact (batch_isProcessBatch {} _ () 0 (List.cons_ne_nil _ _ : reorderNote ≠ [])
      (by decide) ⟨⟨rfl, rfl, rfl, rfl, rfl⟩, rfl⟩).1
  · exact (batch_isProcessBatch {} _ () 0 (List.cons_ne_nil _ _ : reorderNote ≠ [])
      (by decide) ⟨⟨rfl, rfl, rfl, rfl, rfl⟩, rfl⟩).2 () (by decide) rfl

end Notebortt.SocketBatches
