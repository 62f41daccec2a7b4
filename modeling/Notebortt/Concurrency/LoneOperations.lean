import Mathlib.Logic.Relation
import Notebortt.Concurrency.BoardCommands

/-! # Operations with nobody else at work

    Between two commands of an operation anybody may go on. When nobody does,
    and the two locks are free, the operation comes to its end, and it has done
    what the function of its name does: `loadBoard`, `applyChangeSet`,
    `flushBoard`, `persistBoard`. -/

namespace Notebortt.BoardCommands

/-! ### Runs of one process -/

/-- The labels of a process with nobody else at work, in an operation that `evicts` or does not.
    Its commands read the clock once, and its scans find what their pattern matches. -/
inductive Own {P : Type} (boardId : String) (p : P) (now : Nat) : Bool → Label P → Prop where
  | command {evicts : Bool} : Own boardId p now evicts (.command p now)
  | scanPage : Own boardId p now true (.scanPage p fun name => scanFinds boardId (name.key boardId))
  | del : Own boardId p now true (.del p)

/-- The change an `applyChangeSet` returns: the one its pipeline writes, once there is one. -/
def noted (change : Option PersistedElementChange) : Run → Option PersistedElementChange
  | .apply _ (.writing change _ _) => some change
  | _ => change

section alone
variable {P : Type} [DecidableEq P]

/-- The process goes on by itself, with the change it has noted. -/
def Alone (cfg : Config) (boardId : String) (p : P) (now : Nat) (evicts : Bool) :
    Option PersistedElementChange × State P → Option PersistedElementChange × State P → Prop :=
  Relation.ReflTransGen fun x y =>
    ∃ l, Own boardId p now evicts l ∧ step cfg boardId x.2 l = some y.2 ∧
      y.1 = noted x.1 (y.2.run p)

/-- What the process finds: the stores, the two locks, and its own run. -/
structure Stands (p : P) (keys : BoardKeys) (db : Postgres) (loadLock evictionLock : Option P)
    (run : Run) (s : State P) : Prop where
  keys : s.keys = keys
  db : s.db = db
  loadLock : s.loadLock = loadLock
  evictionLock : s.evictionLock = evictionLock
  run : s.run p = run

/-- The process comes to the end of its operation, with these stores and both locks free. -/
def Ends (cfg : Config) (boardId : String) (p : P) (now : Nat) (evicts : Bool)
    (change change' : Option PersistedElementChange) (keys : BoardKeys) (db : Postgres)
    (s : State P) : Prop :=
  ∃ s', Alone cfg boardId p now evicts (change, s) (change', s') ∧
    Stands p keys db none none .idle s'

variable {cfg : Config} {boardId : String} {p : P} {now : Nat} {s s' : State P}
  {change change' : Option PersistedElementChange} {keys keys' : BoardKeys} {db db' : Postgres}
  {loadLock evictionLock : Option P} {evicts : Bool}

theorem Ends.refl (h : Stands p keys db none none .idle s) :
    Ends cfg boardId p now evicts change change keys db s :=
  ⟨s, Relation.ReflTransGen.refl, h⟩

theorem Ends.head {l : Label P} {noting : Option PersistedElementChange}
    (hl : Own boardId p now evicts l) (hstep : step cfg boardId s l = some s')
    (hnoted : noted change (s'.run p) = noting)
    (h : Ends cfg boardId p now evicts noting change' keys db s') :
    Ends cfg boardId p now evicts change change' keys db s := by
  obtain ⟨s'', halone, hstands⟩ := h
  exact ⟨s'', Relation.ReflTransGen.head ⟨l, hl, hstep, hnoted.symm⟩ halone, hstands⟩

/-- The next step, after which the process finds itself in another run. -/
theorem Ends.own {l : Label P} {run : Run} (hl : Own boardId p now evicts l)
    (hstep : step cfg boardId s l = some s')
    (hstands : Stands p keys db loadLock evictionLock run s') (hnoted : noted change run = change)
    (h : ∀ s', Stands p keys db loadLock evictionLock run s' →
      Ends cfg boardId p now evicts change change' keys' db' s') :
    Ends cfg boardId p now evicts change change' keys' db' s :=
  .head hl hstep (by rw [hstands.run, hnoted]) (h s' hstands)

theorem Ends.command {run : Run} (hstep : step cfg boardId s (.command p now) = some s')
    (hstands : Stands p keys db loadLock evictionLock run s') (hnoted : noted change run = change)
    (h : ∀ s', Stands p keys db loadLock evictionLock run s' →
      Ends cfg boardId p now evicts change change' keys' db' s') :
    Ends cfg boardId p now evicts change change' keys' db' s :=
  .own .command hstep hstands hnoted h

/-- The last command of an operation. -/
theorem Ends.last (hstep : step cfg boardId s (.command p now) = some s')
    (h : Stands p keys db none none .idle s') :
    Ends cfg boardId p now evicts change change keys db s :=
  .command hstep h rfl fun _ h => .refl h

/-! ### Commands -/

theorem step_load {r : LoadRun} (h : s.run p = .load r) :
    step cfg boardId s (.command p now) = some (loadCommand boardId s p r) := by
  simp [step, h]

theorem step_apply {call : ApplyCall} {r : ApplyRun} (h : s.run p = .apply call r) :
    step cfg boardId s (.command p now) = some (applyCommand s p call now r) := by
  simp [step, h]

theorem step_persist {r : PersistRun} (h : s.run p = .persist r) :
    step cfg boardId s (.command p now) = some (persistCommand cfg boardId s p now r) := by
  simp [step, h]

theorem step_flush {r : FlushRun} (h : s.run p = .flush r) :
    step cfg boardId s (.command p now) = flushCommand s p r := by
  simp [step, h]

theorem Stands.setRun {r : Run} (h : Stands p keys db loadLock evictionLock r s) (r' : Run) :
    Stands p keys db loadLock evictionLock r' (s.setRun p r') :=
  ⟨h.keys, h.db, h.loadLock, h.evictionLock, State.setRun_self ..⟩

/-- A command that goes on with another run, and nothing else. -/
theorem Ends.setRun {r : Run} (h : Stands p keys db loadLock evictionLock r s) (r' : Run)
    (hstep : step cfg boardId s (.command p now) = some (s.setRun p r'))
    (hnoted : noted change r' = change)
    (hrest : ∀ s', Stands p keys db loadLock evictionLock r' s' →
      Ends cfg boardId p now evicts change change' keys' db' s') :
    Ends cfg boardId p now evicts change change' keys' db' s :=
  .command hstep (h.setRun r') hnoted hrest

/-- With both locks free a wait is over after three commands. -/
theorem ends_wait (f : WaitRun → Run) (h : Stands p keys db none none (f .loadLock) s)
    (hwaiting : ∀ (s : State P) (w w' : WaitRun), s.run p = f w → waitCommand s w = some w' →
      step cfg boardId s (.command p now) = some (s.setRun p (f w')))
    (hwaits : ∀ w, noted change (f w) = change)
    (hrest : ∀ s w, Stands p keys db none none (f w) s → waitCommand s w = none →
      ∃ s', step cfg boardId s (.command p now) = some s' ∧ noted change (s'.run p) = change ∧
        Ends cfg boardId p now evicts change change' keys' db' s') :
    Ends cfg boardId p now evicts change change' keys' db' s := by
  refine .setRun h (f (.seq false)) ?_ (hwaits _) fun s₁ h₁ => ?_
  · exact hwaiting s _ _ h.run (by simp [waitCommand, h.loadLock])
  refine .setRun h₁ (f (.evictionLock false keys.seq.isSome)) ?_ (hwaits _) fun s₂ h₂ => ?_
  · exact hwaiting s₁ _ _ h₁.run (by simp [waitCommand, h₁.keys])
  obtain ⟨s', hover, hnoted, hends⟩ := hrest s₂ _ h₂ (by simp [waitCommand, h₂.evictionLock])
  exact .head .command hover hnoted hends

/-- A wait that is followed by another run. -/
theorem ends_wait_setRun (f : WaitRun → Run) (r : Run)
    (h : Stands p keys db none none (f .loadLock) s)
    (hf : ∀ (s : State P) (w : WaitRun), s.run p = f w →
      step cfg boardId s (.command p now) = some (s.setRun p ((waitCommand s w).elim r f)))
    (hwaits : ∀ w, noted change (f w) = change) (hnoted : noted change r = change)
    (hrest : ∀ s, Stands p keys db none none r s →
      Ends cfg boardId p now evicts change change' keys' db' s) :
    Ends cfg boardId p now evicts change change' keys' db' s := by
  refine ends_wait f h (fun s w w' hrun hw => ?_) hwaits fun s₁ w h₁ hw => ?_
  · rw [hf s w hrun, hw, Option.elim_some]
  · refine ⟨s₁.setRun p r, ?_, ?_, hrest _ (h₁.setRun r)⟩
    · rw [hf s₁ w h₁.run, hw, Option.elim_none]
    · rw [State.setRun_self, hnoted]

/-! ### `loadBoard` -/

theorem ends_load_release (h : Stands p keys db (some p) none (.load .release) s) :
    Ends cfg boardId p now evicts change change keys db s := by
  refine .last (step_load h.run) ?_
  constructor <;> simp [loadCommand, State.setRun, h.keys, h.db, h.loadLock, h.evictionLock]

/-- The pipeline of a load. -/
theorem ends_load_writing {rows : List (String × BoardElement)} :
    ∀ {keys : BoardKeys} {s : State P},
      Stands p keys db (some p) none (.load (.writing rows)) s →
      Ends cfg boardId p now evicts change change
        { keys with elements := Dict.insertAll keys.elements rows, seq := some 0 } db s := by
  induction rows with
  | nil =>
    intro keys s h
    have hset : Stands p { keys with seq := some 0 } db (some p) none (.load .release)
        (loadCommand boardId s p (.writing [])) := by
      constructor <;> simp [loadCommand, State.setRun, h.keys, h.db, h.loadLock, h.evictionLock]
    exact .command (step_load h.run) hset rfl fun s' h' => ends_load_release h'
  | cons row rest ih =>
    intro keys s h
    have hset : Stands p { keys with elements := keys.elements.insert row.1 row.2 } db (some p) none
        (.load (.writing rest)) (loadCommand boardId s p (.writing (row :: rest))) := by
      constructor <;> simp [loadCommand, State.setRun, h.keys, h.db, h.loadLock, h.evictionLock]
    exact .command (step_load h.run) hset rfl fun s' h' => ih h'

/-- With nobody else at work a load is `loadBoard`. -/
theorem ends_loadBoard {server : Server}
    (h : Stands p (server.redis boardId) server.db none none (.load .checkEviction) s) :
    Ends cfg boardId p now evicts change change ((loadBoard boardId server).redis boardId)
      (loadBoard boardId server).db s := by
  refine .setRun h (.load .checkLoaded) ?_ rfl fun s₁ h₁ => ?_
  · simp [step_load h.run, loadCommand, h.evictionLock]
  by_cases hseq : (server.redis boardId).seq.isSome
  · rw [loadBoard, if_pos hseq]
    refine .last (step_load h₁.run) ?_
    simpa [loadCommand, h₁.keys, hseq] using h₁.setRun .idle
  · have hloaded : loadBoard boardId server = server.setKeys boardId
        { server.redis boardId with
          elements := Dict.insertAll (server.redis boardId).elements
            (loadedElements boardId server.db)
          seq := some 0 } := by
      rw [loadBoard, if_neg hseq]
    rw [hloaded, Server.setKeys_redis_self]
    refine .setRun h₁ (.load .acquire) ?_ rfl fun s₂ h₂ => ?_
    · simp [step_load h₁.run, loadCommand, h₁.keys, hseq]
    have hlocked : Stands p (server.redis boardId) server.db (some p) none (.load .recheck)
        (loadCommand boardId s₂ p .acquire) := by
      constructor <;>
        simp [loadCommand, State.setRun, h₂.keys, h₂.db, h₂.loadLock, h₂.evictionLock]
    refine .command (step_load h₂.run) hlocked rfl fun s₃ h₃ => ?_
    refine .setRun h₃ (.load .select) ?_ rfl fun s₄ h₄ => ?_
    · simp [step_load h₃.run, loadCommand, h₃.keys, hseq]
    refine .setRun h₄ (.load (.checkAgain (loadedElements boardId server.db))) ?_ rfl
      fun s₅ h₅ => ?_
    · simp [step_load h₄.run, loadCommand, h₄.db]
    refine .setRun h₅ (.load (.writing (loadedElements boardId server.db))) ?_ rfl
      fun s₆ h₆ => ends_load_writing h₆
    simp [step_load h₅.run, loadCommand, h₅.keys, hseq]

/-! ### `applyChangeSet` -/

section apply
variable {call : ApplyCall}

theorem ends_apply_writing {written : PersistedElementChange} {rest : List WriteCommand} :
    ∀ {sent : List WriteCommand} {keys : BoardKeys} {s : State P},
      Stands p keys db none none (.apply call (.writing written sent rest)) s →
      Ends cfg boardId p now evicts (some written) (some written) (runPipeline rest keys) db s := by
  induction rest with
  | nil =>
    intro sent keys s h
    exact .last (step_apply h.run) (h.setRun .idle)
  | cons c rest ih =>
    intro sent keys s h
    cases rest with
    | nil =>
      refine .last (step_apply h.run) ?_
      constructor <;>
        simp [applyCommand, State.setRun, runPipeline, h.keys, h.db, h.loadLock, h.evictionLock]
    | cons c' rest =>
      have hsent : Stands p (c.exec keys) db none none
          (.apply call (.writing written (sent ++ [c]) (c' :: rest)))
          (applyCommand s p call now (.writing written sent (c :: c' :: rest))) := by
        constructor <;> simp [applyCommand, State.setRun, h.keys, h.db, h.loadLock, h.evictionLock]
      exact .command (step_apply h.run) hsent rfl fun s' h' => ih h'

/-- The elements a cascade runs over count as far as they resolve the change set. -/
theorem run_of_source (source : List BoardElement)
    (h : resolveChangeSet source call.changeSet =
      resolveChangeSet (call.baseElementsForCascadeDelete.getD keys.elementList) call.changeSet) :
    ApplyCall.run { call with baseElementsForCascadeDelete := some source } now keys =
      call.run now keys := by
  simp [ApplyCall.run, h]

/-- From the resolved change set on: the INCR, and the pipeline. -/
theorem ends_resolved {r : Run} (h : Stands p keys db none none r s) (source : List BoardElement)
    (hsource : resolveChangeSet source call.changeSet =
      resolveChangeSet (call.baseElementsForCascadeDelete.getD keys.elementList) call.changeSet) :
    noted none ((resolved s p call source).run p) = none ∧
      Ends cfg boardId p now evicts none (call.run now keys).1 (call.run now keys).2 db
        (resolved s p call source) := by
  rw [← run_of_source source hsource]
  simp only [ApplyCall.run, resolved, Option.getD_some]
  split
  · exact ⟨by rw [State.setRun_self]; rfl, .refl (h.setRun .idle)⟩
  · refine ⟨by rw [State.setRun_self]; rfl, ?_⟩
    refine ends_wait_setRun
      (fun w => .apply call (.waitingSequence w (resolveChangeSet source call.changeSet)))
      (.apply call (.incr (resolveChangeSet source call.changeSet))) (h.setRun _) ?_ (fun _ => rfl)
      rfl fun s₁ h₁ => ?_
    · intro s w hrun
      rw [step_apply hrun]
      cases hw : waitCommand s w <;> simp [applyCommand, hw]
    -- the INCR numbers the change
    generalize hwritten : (⟨(getSequence keys).1, (resolveChangeSet source call.changeSet).upserts,
      (resolveChangeSet source call.changeSet).deletes⟩ : PersistedElementChange) = written
    have hnumbered : Stands p (getSequence keys).2 db none none
        (.apply call (.writing written [] (writePipeline call.trackChangeLog now written)))
        (applyCommand s₁ p call now (.incr (resolveChangeSet source call.changeSet))) := by
      constructor <;> simp [applyCommand, State.setRun, h₁.keys, h₁.db, h₁.loadLock,
        h₁.evictionLock, ← hwritten]
    refine .head .command (step_apply h₁.run) ?_ (ends_apply_writing hnumbered)
    rw [hnumbered.run]
    rfl

/-- With nobody else at work a change set is applied as `applyChangeSet` applies it. -/
theorem ends_applyChangeSet (h : Stands p keys db none none (.apply call (.waiting .loadLock)) s) :
    Ends cfg boardId p now evicts none (call.run now keys).1 (call.run now keys).2 db s := by
  refine ends_wait (fun w => .apply call (.waiting w)) h ?_ (fun _ => rfl) fun s₁ w h₁ hw => ?_
  · intro s w w' hrun hw
    simp [step_apply hrun, applyCommand, hw]
  · refine ⟨_, step_apply h₁.run, ?_⟩
    simp only [applyCommand, hw]
    split
    · next hnone =>
      -- without deletes there is no cascade, over whatever elements
      exact ends_resolved h₁ [] (by simp [resolveChangeSet, hnone])
    · split
      · next base hbase => exact ends_resolved h₁ base (by rw [hbase, Option.getD_some])
      · next hbase =>
        refine ⟨by rw [State.setRun_self]; rfl, ?_⟩
        refine ends_wait_setRun (fun w => .apply call (.waitingElements w))
          (.apply call .readElements) (h₁.setRun _) ?_ (fun _ => rfl) rfl fun s₂ h₂ => ?_
        · intro s w hrun
          rw [step_apply hrun]
          cases hw : waitCommand s w <;> simp [applyCommand, hw]
        obtain ⟨hnoted, hends⟩ :=
          ends_resolved h₂ keys.elementList (by rw [hbase, Option.getD_none])
        refine .head .command ?_ hnoted hends
        rw [step_apply h₂.run, applyCommand, h₂.keys]

end apply

/-! ### `flushBoard` -/

/-- The three commands that take the board out of the indexes. -/
theorem ends_unindexing (f : List UnindexCommand → Run) (last : Run)
    (hf : ∀ s : State P, ∀ c rest, s.run p = f (c :: rest) →
      step cfg boardId s (.command p now) =
        some ({ s with keys := c.exec s.keys }.setRun p (f rest)))
    (hlast : ∀ s : State P, s.run p = f [] →
      step cfg boardId s (.command p now) = some (s.setRun p last))
    (hunindexes : ∀ rest, noted change (f rest) = change) (hnoted : noted change last = change)
    (h : Stands p keys db loadLock evictionLock (f unindexPipeline) s)
    (hrest : ∀ s, Stands p keys.unindex db loadLock evictionLock last s →
      Ends cfg boardId p now evicts change change' keys' db' s) :
    Ends cfg boardId p now evicts change change' keys' db' s := by
  have hexec : ∀ {s : State P} {keys : BoardKeys} (c : UnindexCommand) (rest : List UnindexCommand),
      Stands p keys db loadLock evictionLock (f (c :: rest)) s →
      (∀ s, Stands p (c.exec keys) db loadLock evictionLock (f rest) s →
        Ends cfg boardId p now evicts change change' keys' db' s) →
      Ends cfg boardId p now evicts change change' keys' db' s := by
    intro s keys c rest h hnext
    have hsent : Stands p (c.exec keys) db loadLock evictionLock (f rest)
        ({ s with keys := c.exec s.keys }.setRun p (f rest)) :=
      ⟨congrArg (UnindexCommand.exec · c) h.keys, h.db, h.loadLock, h.evictionLock,
        State.setRun_self ..⟩
    exact .command (hf s c rest h.run) hsent (hunindexes rest) hnext
  refine hexec _ _ h fun s₁ h₁ => hexec _ _ h₁ fun s₂ h₂ => hexec _ _ h₂ fun s₃ h₃ => ?_
  exact .setRun h₃ last (hlast s₃ h₃.run) hnoted hrest

/-- With nobody else at work an eviction is `flushBoard`. -/
theorem ends_flushBoard {redis : Redis}
    (h : Stands p (redis boardId) db none none (.flush (.acquire false)) s) :
    Ends cfg boardId p now true change change (flushBoard boardId redis boardId) db s := by
  have hacquired : Stands p (redis boardId) db none (some p) (.flush (.scanning fun _ => false))
      ({ s with evictionLock := some p }.setRun p (.flush (.scanning fun _ => false))) :=
    ⟨h.keys, h.db, h.loadLock, rfl, State.setRun_self ..⟩
  refine .command ?_ hacquired rfl fun s₁ h₁ => ?_
  · simp [step_flush h.run, flushCommand, h.evictionLock]
  -- one page of the scan shows what there is
  refine .own .scanPage ?_
    (h₁.setRun (.flush (.scanning fun name => scanFinds boardId (name.key boardId)))) rfl
    fun s₂ h₂ => ?_
  · simp [step, h₁.run]
  -- the DEL may take the eviction's own lock with the rest
  obtain ⟨s₃, hdel, lock, h₃, hlock⟩ : ∃ s₃, step cfg boardId s₂ (.del p) = some s₃ ∧
      ∃ lock, Stands p ((redis boardId).del fun name => scanFinds boardId (name.key boardId)) db
        none lock (.flush (.unindexing unindexPipeline)) s₃ ∧ (lock = some p ∨ lock = none) := by
    simp only [step, h₂.run, Option.some.injEq, exists_eq_left']
    refine ⟨_, ⟨?_, h₂.db, ?_, rfl, State.setRun_self ..⟩, ?_⟩
    · simp only [State.setRun, h₂.keys]
    · simp only [State.setRun, h₂.loadLock, ite_self]
    · simp only [State.setRun]
      by_cases hfound : scanFinds boardId (KeyName.key boardId .evictionLock) = true
      · exact .inr (by simp [hfound])
      · exact .inl (by simp [hfound, h₂.evictionLock])
  refine .own .del hdel h₃ rfl fun s₄ h₄ => ?_
  refine ends_unindexing (fun rest => .flush (.unindexing rest)) (.flush .release) ?_ ?_
    (fun _ => rfl) rfl h₄ fun s₅ h₅ => ?_
  · intro s c rest hrun
    rw [step_flush hrun, flushCommand]
  · intro s hrun
    rw [step_flush hrun, flushCommand]
  have hkeys : flushBoard boardId redis boardId =
      ((redis boardId).del fun name => scanFinds boardId (name.key boardId)).unindex := by
    simp [flushBoard]
  rw [hkeys]
  have hrelease : step cfg boardId s₅ (.command p now) =
      some ({ s₅ with evictionLock := none }.setRun p .idle) := by
    rw [step_flush h₅.run, flushCommand, h₅.evictionLock]
    rcases hlock with rfl | rfl <;> simp
  exact .last hrelease ⟨h₅.keys, h₅.db, h₅.loadLock, rfl, State.setRun_self ..⟩

/-! ### `persistBoard` -/

section persist
variable {server : Server}

theorem persistBoard_of_loaded (hexists : IsExistingBoard server.db boardId)
    (hseq : (server.redis boardId).seq.isSome) :
    (persistBoard cfg now boardId server).2 =
      match flushTransaction cfg boardId (server.redis boardId) server.db with
      | .error e =>
        if flushesBoard e then { server with redis := flushBoard boardId server.redis } else server
      | .ok db =>
        { server with db := db }.setKeys boardId
          (compareAndClear cfg.enableIncrementalPersistence (getDirtyEpoch (server.redis boardId))
            (peekSequence (server.redis boardId)) now 0 (server.redis boardId)).2 := by
  obtain ⟨huuid, hboard⟩ := hexists
  rw [persistBoard, if_neg (by simp [huuid]), if_neg (not_not.mpr hboard),
    if_neg (by simp [Option.isNone_iff_eq_none, ← Option.isSome_iff_ne_none, hseq])]
  cases flushTransaction cfg boardId (server.redis boardId) server.db with
  | error e => cases hflush : flushesBoard e <;> simp [hflush]
  | ok db => rfl

/-- The transaction, and the script after it. -/
theorem ends_commit {snap : Snapshot} (hexists : IsExistingBoard server.db boardId)
    (hseq : (server.redis boardId).seq.isSome)
    (h : Stands p (server.redis boardId) server.db none none
      (.persist (.commit (peekSequence (server.redis boardId))
        (getDirtyEpoch (server.redis boardId)) snap)) s)
    (hsnap : snap.transaction boardId server.db =
      flushTransaction cfg boardId (server.redis boardId) server.db) :
    Ends cfg boardId p now true change change
      ((persistBoard cfg now boardId server).2.redis boardId)
      (persistBoard cfg now boardId server).2.db s := by
  rw [persistBoard_of_loaded hexists hseq, ← hsnap]
  cases htransaction : snap.transaction boardId server.db with
  | ok db =>
    obtain ⟨s₁, hcommand, hcommitted⟩ : ∃ s₁,
        step cfg boardId s (.command p now) = some s₁ ∧
          Stands p (server.redis boardId) db none none
            (.persist (.clear (peekSequence (server.redis boardId))
              (getDirtyEpoch (server.redis boardId)))) s₁ := by
      rw [step_persist h.run, persistCommand, h.db, htransaction]
      exact ⟨_, rfl, h.keys, rfl, h.loadLock, h.evictionLock, State.setRun_self ..⟩
    refine .command hcommand hcommitted rfl fun s₂ h₂ => ?_
    refine .last (step_persist h₂.run) ?_
    rw [persistCommand, h₂.keys]
    simp only [Server.setKeys_redis_self, Server.setKeys_db]
    exact ⟨rfl, h₂.db, h₂.loadLock, h₂.evictionLock, State.setRun_self ..⟩
  | error e =>
    have hcommand : step cfg boardId s (.command p now) =
        some (s.setRun p (if flushesBoard e then .flush (.acquire false) else .idle)) := by
      rw [step_persist h.run, persistCommand, h.db, htransaction]
    simp only
    split
    · next hflush =>
      rw [if_pos hflush] at hcommand
      exact .setRun h _ hcommand rfl fun s₁ h₁ => ends_flushBoard h₁
    · next hflush =>
      rw [if_neg hflush] at hcommand
      exact .last hcommand (h.setRun .idle)

/-- The snapshot of the mode configured, and what follows. -/
theorem ends_snapshot (hexists : IsExistingBoard server.db boardId)
    (hseq : (server.redis boardId).seq.isSome)
    (h : Stands p (server.redis boardId) server.db none none
      (.persist (.readEpoch (peekSequence (server.redis boardId)))) s) :
    Ends cfg boardId p now true change change
      ((persistBoard cfg now boardId server).2.redis boardId)
      (persistBoard cfg now boardId server).2.db s := by
  by_cases hincremental : cfg.enableIncrementalPersistence = true
  · refine .setRun h (.persist (.readDirty (peekSequence (server.redis boardId))
      (getDirtyEpoch (server.redis boardId)))) ?_ rfl fun s₁ h₁ => ?_
    · rw [step_persist h.run, persistCommand, h.keys, if_pos hincremental]
    refine .setRun h₁ (.persist (.readDeleted (peekSequence (server.redis boardId))
      (getDirtyEpoch (server.redis boardId)) (server.redis boardId).dirtyElementIds.keys)) ?_ rfl
      fun s₂ h₂ => ?_
    · rw [step_persist h₁.run, persistCommand, h₁.keys]
    refine .setRun h₂ (.persist (.readElements (peekSequence (server.redis boardId))
      (getDirtyEpoch (server.redis boardId)) (server.redis boardId).dirtyElementIds.keys
      (server.redis boardId).deletedElementIds.keys)) ?_ rfl fun s₃ h₃ => ?_
    · rw [step_persist h₂.run, persistCommand, h₂.keys]
    refine .setRun h₃ (.persist (.commit (peekSequence (server.redis boardId))
      (getDirtyEpoch (server.redis boardId)) (.incremental (dirtySnapshot (server.redis boardId)))))
      ?_ rfl fun s₄ h₄ => ends_commit hexists hseq h₄ ?_
    · rw [step_persist h₃.run, persistCommand, h₃.keys]
      rfl
    · rw [flushTransaction, if_pos hincremental]
      rfl
  · refine .setRun h (.persist (.waitingElements .loadLock (peekSequence (server.redis boardId))
      (getDirtyEpoch (server.redis boardId)))) ?_ rfl fun s₁ h₁ => ?_
    · rw [step_persist h.run, persistCommand, h.keys, if_neg hincremental]
    refine ends_wait_setRun (fun w => .persist (.waitingElements w
      (peekSequence (server.redis boardId)) (getDirtyEpoch (server.redis boardId))))
      (.persist (.readAll (peekSequence (server.redis boardId))
        (getDirtyEpoch (server.redis boardId)))) h₁ ?_ (fun _ => rfl) rfl fun s₂ h₂ => ?_
    · intro s w hrun
      rw [step_persist hrun]
      cases hw : waitCommand s w <;> simp [persistCommand, hw]
    refine .setRun h₂ (.persist (.commit (peekSequence (server.redis boardId))
      (getDirtyEpoch (server.redis boardId)) (.full (server.redis boardId).elements))) ?_ rfl
      fun s₃ h₃ => ends_commit hexists hseq h₃ ?_
    · rw [step_persist h₂.run, persistCommand, h₂.keys]
    · rw [flushTransaction, if_neg hincremental]
      rfl

/-- With nobody else at work a flush is `persistBoard`. -/
theorem ends_persistBoard
    (h : Stands p (server.redis boardId) server.db none none (.persist (.waiting .loadLock)) s) :
    Ends cfg boardId p now true change change
      ((persistBoard cfg now boardId server).2.redis boardId)
      (persistBoard cfg now boardId server).2.db s := by
  refine ends_wait_setRun (fun w => .persist (.waiting w)) (.persist .checkBoard) h ?_
    (fun _ => rfl) rfl fun s₁ h₁ => ?_
  · intro s w hrun
    rw [step_persist hrun]
    cases hw : waitCommand s w <;> simp [persistCommand, hw]
  by_cases hexists : IsExistingBoard server.db boardId
  · refine .setRun h₁ (.persist .checkLoaded) ?_ rfl fun s₂ h₂ => ?_
    · rw [step_persist h₁.run, persistCommand, h₁.db, if_pos hexists]
    by_cases hseq : (server.redis boardId).seq.isSome
    · refine .setRun h₂ (.persist .readSince) ?_ rfl fun s₃ h₃ => ?_
      · rw [step_persist h₂.run, persistCommand, h₂.keys, if_pos hseq]
      refine .setRun h₃ (.persist (.waitingSequence .loadLock)) ?_ rfl fun s₄ h₄ => ?_
      · rw [step_persist h₃.run, persistCommand]
      refine ends_wait_setRun (fun w => .persist (.waitingSequence w)) (.persist .readSequence) h₄
        ?_ (fun _ => rfl) rfl fun s₅ h₅ => ?_
      · intro s w hrun
        rw [step_persist hrun]
        cases hw : waitCommand s w <;> simp [persistCommand, hw]
      refine .setRun h₅ (.persist (.readEpoch (peekSequence (server.redis boardId)))) ?_ rfl
        fun s₆ h₆ => ?_
      · rw [step_persist h₅.run, persistCommand, h₅.keys]
      exact ends_snapshot hexists hseq h₆
    · refine .setRun h₂ (.persist (.unindexing unindexPipeline)) ?_ rfl fun s₃ h₃ => ?_
      · rw [step_persist h₂.run, persistCommand, h₂.keys, if_neg hseq]
      have hunindexed : (persistBoard cfg now boardId server).2 =
          server.setKeys boardId (server.redis boardId).unindex := by
        rw [persistBoard, if_neg (by simp [hexists.1]), if_neg (not_not.mpr hexists.2),
          if_pos (by simpa using hseq)]
      rw [hunindexed, Server.setKeys_redis_self, Server.setKeys_db]
      refine ends_unindexing (fun rest => .persist (.unindexing rest)) .idle ?_ ?_ (fun _ => rfl)
        rfl h₃ fun s₄ h₄ => .refl h₄
      · intro s c rest hrun
        rw [step_persist hrun, persistCommand]
      · intro s hrun
        rw [step_persist hrun, persistCommand]
  · refine .setRun h₁ (.flush (.acquire false)) ?_ rfl fun s₂ h₂ => ?_
    · rw [step_persist h₁.run, persistCommand, h₁.db, if_neg hexists]
    rw [persistBoard_of_flushes now fun h => absurd h hexists]
    exact ends_flushBoard h₂

end persist

end alone

end Notebortt.BoardCommands
