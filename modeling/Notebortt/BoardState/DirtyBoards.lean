import Notebortt.BoardState.Persistence
import Notebortt.Lib.RetryQueue

/-! # Flushing the dirty boards

    `persistDirtyBoards` and the policy of `board-persistence.service.ts`. A
    call takes the first boards of `boards:dirty_by_age`; a board whose
    `persistBoard` throws keeps its place there. -/

namespace Notebortt.DirtyBoards

/-! ### `persistDirtyBoards` -/

structure PersistDirtyBoardsOptions where
  limit : Nat := 25
  minDirtyAgeMs : Nat := 0
  retryAttempts : Nat := 3

/-- A number for the options. -/
def PersistDirtyBoardsOptions.ofNumber (limit : Nat) : PersistDirtyBoardsOptions where
  limit := limit
  retryAttempts := 1

/-- The options of `flushDirtyBoards`. -/
def flushDirtyBoardsOptions : PersistDirtyBoardsOptions where
  minDirtyAgeMs := 30000
  retryAttempts := 3

/-- What a call finds outside: the clock, when it starts and when a board's turn comes, and the
    attempts at which a store is out of reach. -/
structure Outside where
  now : Nat
  clock : String → Nat
  unreachable : String → Nat → Bool

/-- What a call does: the boards it passes to `persistBoard`, those that it returns, and the server
    it leaves. -/
structure Outcome where
  passed : List String
  persisted : List String
  server : Server

section calls
variable (cfg : Config) (o : PersistDirtyBoardsOptions) (outside : Outside)

/-- The score lies between `-inf` and `maxScore`. -/
def isInRange (s : Server) (boardId : String) : Bool :=
  match (s.redis boardId).dirtyByAge with
  | some score => o.minDirtyAgeMs = 0 || score + o.minDirtyAgeMs ≤ outside.now
  | none => false

/-- ZRANGEBYSCORE with LIMIT 0 `limit`. `ids` are the members in the order of the set; one that has
    left since is passed over. -/
def dirtyBoardIds (ids : List String) (s : Server) : List String :=
  (ids.filter (isInRange o outside s)).take o.limit

/-- The second look at a board's age. -/
def isTooYoung (boardId : String) (s : Server) : Bool :=
  match (s.redis boardId).dirtySince with
  | some dirtySince => 0 < dirtySince && outside.clock boardId < dirtySince + o.minDirtyAgeMs
  | none => false

/-- The attempts that are left; was one of them a success? -/
def attempts (boardId : String) : Nat → Server → Bool × Server
  | 0, s => (false, s)
  | left + 1, s =>
    if outside.unreachable boardId left then attempts boardId left s
    else match persistBoard cfg (outside.clock boardId) boardId s with
      | (none, s') => (true, s')
      | (some _, s') => attempts boardId left s'

def persistLoop : List String → Server → Outcome
  | [], s => ⟨[], [], s⟩
  | boardId :: boardIds, s =>
    if isTooYoung o outside boardId s then persistLoop boardIds s
    else
      let attempt := attempts cfg outside boardId (max 1 o.retryAttempts) s
      let rest := persistLoop boardIds attempt.2
      { rest with
        passed := boardId :: rest.passed
        persisted := if attempt.1 then boardId :: rest.persisted else rest.persisted }

def persistDirtyBoards (ids : List String) (s : Server) : Outcome :=
  persistLoop cfg o outside (dirtyBoardIds o outside ids s) s

/-- One call after another. -/
def calls (ids : List String) : List Outside → Server → List Outcome
  | [], _ => []
  | outside :: later, s =>
    let outcome := persistDirtyBoards cfg o outside ids s
    outcome :: calls ids later outcome.server

end calls

/-! ### The property -/

/-- The order of `boards:dirty_by_age`: by score, and by the bytes of the ids where the scores are
    equal. -/
def ComesBefore (s : Server) (a b : String) : Prop :=
  (s.redis a).dirtyByAge.getD 0 < (s.redis b).dirtyByAge.getD 0 ∨
    ((s.redis a).dirtyByAge.getD 0 = (s.redis b).dirtyByAge.getD 0 ∧
      notAfter ((keyBytes a).map (·.toNat)) ((keyBytes b).map (·.toNat)) = true)

/-- The members of `boards:dirty_by_age`, in order; none was marked dirty after it came in. -/
structure DirtyIndex (ids : List String) (s : Server) : Prop where
  nodup : ids.Nodup
  mem : ∀ boardId, boardId ∈ ids ↔ (s.redis boardId).dirtyByAge ≠ none
  sorted : ids.Pairwise (ComesBefore s)
  dirtySince : ∀ boardId score dirtySince, (s.redis boardId).dirtyByAge = some score →
    (s.redis boardId).dirtySince = some dirtySince → dirtySince ≤ score

/-- The board was marked at least `minDirtyAgeMs` before `now`. -/
def isOld (o : PersistDirtyBoardsOptions) (now : Nat) (s : Server) (boardId : String) : Bool :=
  match (s.redis boardId).dirtyByAge with
  | some score => score + o.minDirtyAgeMs ≤ now
  | none => false

def oldBoards (o : PersistDirtyBoardsOptions) (now : Nat) (ids : List String) (s : Server) :
    List String :=
  ids.filter (isOld o now s)

/-- Calls from `now` on, in which of the old boards exactly those that fail are not persisted. -/
structure FailingRun (cfg : Config) (o : PersistDirtyBoardsOptions) (fails : String → Bool)
    (now : Nat) (ids : List String) (s : Server) (outsides : List Outside) : Prop where
  index : DirtyIndex ids s
  later : ∀ outside ∈ outsides, now ≤ outside.now ∧ ∀ boardId, now ≤ outside.clock boardId
  throws : ∀ outcome ∈ calls cfg o ids outsides s, ∀ boardId ∈ outcome.passed,
    boardId ∈ oldBoards o now ids s → (boardId ∈ outcome.persisted ↔ fails boardId = false)

/-- `Math.ceil(n / limit)`. -/
def callsNeeded (o : PersistDirtyBoardsOptions) (n : Nat) : Nat := (n + o.limit - 1) / o.limit

/-- Every old board that does not fail was passed to `persistBoard`. -/
def HealthyPassed (cfg : Config) (o : PersistDirtyBoardsOptions) (fails : String → Bool) (now : Nat)
    (ids : List String) (s : Server) (outsides : List Outside) : Prop :=
  ∀ boardId ∈ oldBoards o now ids s, fails boardId = false →
    ∃ outcome ∈ calls cfg o ids outsides s, boardId ∈ outcome.passed

/-- The failing boards leave room: in the order of age, the calls get to every board that does not
    fail, each looking at `limit` boards less those that failed before. -/
def LeavesRoom (o : PersistDirtyBoardsOptions) (fails : String → Bool) (old : List String) : Prop :=
  ∀ boardId ∈ old, fails boardId = false →
    boardId ∈ old.take (RetryQueue.examined o.limit fails old (callsNeeded o old.length))

/-! ### What a call does to the markers -/

/-- No marker of the board is new. -/
structure KeepsMarkers (s s' : Server) (boardId : String) : Prop where
  dirtyByAge : (s'.redis boardId).dirtyByAge = (s.redis boardId).dirtyByAge
  dirtySince : (s'.redis boardId).dirtySince = (s.redis boardId).dirtySince ∨
    (s'.redis boardId).dirtySince = none

theorem KeepsMarkers.refl {s : Server} {boardId : String} : KeepsMarkers s s boardId :=
  ⟨rfl, .inl rfl⟩

theorem KeepsMarkers.trans {s₁ s₂ s₃ : Server} {boardId : String} (h : KeepsMarkers s₁ s₂ boardId)
    (h' : KeepsMarkers s₂ s₃ boardId) : KeepsMarkers s₁ s₃ boardId where
  dirtyByAge := h'.dirtyByAge.trans h.dirtyByAge
  dirtySince := by
    rcases h'.dirtySince with heq | hnone
    · rw [heq]
      exact h.dirtySince
    · exact .inr hnone

section markers
variable {cfg : Config} {o : PersistDirtyBoardsOptions} {outside : Outside} {now : Nat}
  {boardId : String} {s : Server}

/-- An eviction takes its board out of the index, and can only delete a marker of another. -/
theorem flushBoard_markers (boardId : String) (s : Server) :
    ((flushBoard boardId s.redis) boardId).dirtyByAge = none ∧
      ∀ b ≠ boardId, KeepsMarkers s { s with redis := flushBoard boardId s.redis } b := by
  constructor
  · simp [flushBoard, BoardKeys.unindex]
  · intro b hb
    have hother : flushBoard boardId s.redis b =
        (s.redis b).del fun name => scanFinds boardId (name.key b) := by
      simp [flushBoard, hb]
    constructor
    · show (flushBoard boardId s.redis b).dirtyByAge = _
      rw [hother]
      rfl
    · show (flushBoard boardId s.redis b).dirtySince = _ ∨
        (flushBoard boardId s.redis b).dirtySince = _
      rw [hother]
      unfold BoardKeys.del
      dsimp only
      split
      · exact .inr rfl
      · exact .inl rfl

theorem setKeys_markers {boardId : String} (db : Postgres) (s : Server) {k : BoardKeys} :
    ∀ b ≠ boardId, KeepsMarkers s ({ s with db := db }.setKeys boardId k) b := by
  intro b hb
  have hother : (Server.setKeys { s with db := db } boardId k).redis b = s.redis b :=
    Server.setKeys_redis_ne _ _ hb
  exact ⟨by rw [hother], .inl (by rw [hother])⟩

/-- A `persistBoard` that returns takes its board out of the index; one that throws changes
    nothing. -/
theorem persistBoard_markers (cfg : Config) (now : Nat) (boardId : String) (s : Server) :
    ((persistBoard cfg now boardId s).1 = none ∧
      ((persistBoard cfg now boardId s).2.redis boardId).dirtyByAge = none ∧
      ∀ b ≠ boardId, KeepsMarkers s (persistBoard cfg now boardId s).2 b) ∨
    ((persistBoard cfg now boardId s).1 ≠ none ∧ (persistBoard cfg now boardId s).2 = s) := by
  rcases persistBoard_cases cfg now boardId s with ⟨_, hrun⟩ | ⟨_, _, hrun⟩ |
    ⟨_, _, e, _, _, hrun⟩ | ⟨_, _, db, _, hrun⟩ <;> rw [hrun]
  · exact .inl ⟨rfl, flushBoard_markers boardId s⟩
  · -- a board that is not loaded only leaves the indexes
    refine .inl ⟨rfl, ?_, setKeys_markers s.db s⟩
    rw [Server.setKeys_redis_self]
    rfl
  · exact .inr ⟨by simp, rfl⟩
  · -- nothing moves the epoch meanwhile, so the clear goes through
    refine .inl ⟨rfl, ?_, setKeys_markers db s⟩
    rw [Server.setKeys_redis_self]
    rfl

theorem attempts_markers (cfg : Config) (outside : Outside) (boardId : String) (left : Nat)
    (s : Server) :
    ((attempts cfg outside boardId left s).1 = true ∧
      ((attempts cfg outside boardId left s).2.redis boardId).dirtyByAge = none ∧
      ∀ b ≠ boardId, KeepsMarkers s (attempts cfg outside boardId left s).2 b) ∨
    ((attempts cfg outside boardId left s).1 = false ∧
      (attempts cfg outside boardId left s).2 = s) := by
  induction left with
  | zero => exact .inr ⟨rfl, rfl⟩
  | succ left ih =>
    unfold attempts
    split
    · exact ih
    · have hpersist := persistBoard_markers cfg (outside.clock boardId) boardId s
      split
      · next s' heq =>
        rw [heq] at hpersist
        rcases hpersist with ⟨-, hnone, hothers⟩ | ⟨hthrows, -⟩
        · exact .inl ⟨rfl, hnone, hothers⟩
        · exact absurd rfl hthrows
      · next e s' heq =>
        rw [heq] at hpersist
        rcases hpersist with ⟨hreturns, -⟩ | ⟨-, hsame⟩
        · cases hreturns
        · dsimp only at hsame
          rw [hsame]
          exact ih

end markers

/-- The loop of a call: which boards leave the index, and that it gets to every board that is not
    too young. -/
structure LoopDone (o : PersistDirtyBoardsOptions) (outside : Outside) (boardIds : List String)
    (s : Server) (outcome : Outcome) : Prop where
  sub : ∀ b ∈ outcome.passed, b ∈ boardIds
  persisted : ∀ b ∈ outcome.persisted, b ∈ outcome.passed
  leaves : ∀ b ∈ outcome.persisted, (outcome.server.redis b).dirtyByAge = none
  stays : ∀ b ∉ outcome.persisted, KeepsMarkers s outcome.server b
  passes : ∀ b ∈ boardIds, (∀ dirtySince, (s.redis b).dirtySince = some dirtySince →
    dirtySince + o.minDirtyAgeMs ≤ outside.clock b) → b ∈ outcome.passed

theorem not_isTooYoung {o : PersistDirtyBoardsOptions} {outside : Outside} {b : String} {s : Server}
    (h : ∀ dirtySince, (s.redis b).dirtySince = some dirtySince →
      dirtySince + o.minDirtyAgeMs ≤ outside.clock b) : isTooYoung o outside b s = false := by
  unfold isTooYoung
  split
  · next dirtySince hsince =>
    have hage := h dirtySince hsince
    rw [Bool.and_eq_false_iff]
    exact .inr (decide_eq_false (by omega))
  · rfl

section loop
variable {o : PersistDirtyBoardsOptions} {outside : Outside} {boardId : String}
  {boardIds : List String} {s : Server}

theorem loopDone_nil : LoopDone o outside [] s ⟨[], [], s⟩ where
  sub := fun _ hb => hb
  persisted := fun _ hb => hb
  leaves := by
    intro b hb
    cases hb
  stays := fun _ _ => .refl
  passes := fun _ hb _ => hb

/-- A board that is too young is left out. -/
theorem LoopDone.skip {outcome : Outcome} (h : LoopDone o outside boardIds s outcome)
    (hyoung : isTooYoung o outside boardId s = true) :
    LoopDone o outside (boardId :: boardIds) s outcome where
  sub := fun b hb => List.mem_cons_of_mem _ (h.sub b hb)
  persisted := h.persisted
  leaves := h.leaves
  stays := h.stays
  passes := by
    intro b hb hage
    rcases List.mem_cons.mp hb with rfl | hb
    · rw [not_isTooYoung hage] at hyoung
      cases hyoung
    · exact h.passes b hb hage

/-- The others are attempted, and the loop goes on with what the attempts have left. -/
theorem LoopDone.attempt {attempt : Bool × Server} {rest : Outcome}
    (hattempt : (attempt.1 = true ∧ (attempt.2.redis boardId).dirtyByAge = none ∧
        ∀ b ≠ boardId, KeepsMarkers s attempt.2 b) ∨ (attempt.1 = false ∧ attempt.2 = s))
    (hrest : LoopDone o outside boardIds attempt.2 rest) :
    LoopDone o outside (boardId :: boardIds) s
      { rest with
        passed := boardId :: rest.passed
        persisted := if attempt.1 then boardId :: rest.persisted else rest.persisted } := by
  -- a marker that the attempts leave is no newer
  have hkeeps : ∀ b, (b = boardId → attempt.1 = false) → KeepsMarkers s attempt.2 b := by
    intro b hb
    rcases hattempt with ⟨hdone, -, hothers⟩ | ⟨-, hsame⟩
    · refine hothers b fun heq => ?_
      rw [hb heq] at hdone
      cases hdone
    · rw [hsame]
      exact .refl
  constructor
  · intro b hb
    rcases List.mem_cons.mp hb with rfl | hb
    · exact List.mem_cons_self
    · exact List.mem_cons_of_mem _ (hrest.sub b hb)
  · intro b hb
    dsimp only at hb
    split at hb
    · rcases List.mem_cons.mp hb with rfl | hb
      · exact List.mem_cons_self
      · exact List.mem_cons_of_mem _ (hrest.persisted b hb)
    · exact List.mem_cons_of_mem _ (hrest.persisted b hb)
  · intro b hb
    by_cases hlater : b ∈ rest.persisted
    · exact hrest.leaves b hlater
    · dsimp only at hb
      split at hb
      · next hdone =>
        obtain rfl := (List.mem_cons.mp hb).resolve_right hlater
        show (rest.server.redis b).dirtyByAge = none
        rw [(hrest.stays b hlater).dirtyByAge]
        rcases hattempt with ⟨-, hnone, -⟩ | ⟨hfalse, -⟩
        · exact hnone
        · rw [hfalse] at hdone
          cases hdone
      · exact absurd hb hlater
  · intro b hb
    dsimp only at hb
    have hlater : b ∉ rest.persisted := by
      split at hb
      · exact fun hmem => hb (List.mem_cons_of_mem _ hmem)
      · exact hb
    refine (hkeeps b ?_).trans (hrest.stays b hlater)
    rintro rfl
    rw [Bool.eq_false_iff]
    intro hdone
    rw [if_pos hdone] at hb
    exact hb List.mem_cons_self
  · intro b hb hage
    rcases List.mem_cons.mp hb with rfl | hb
    · exact List.mem_cons_self
    · by_cases hself : b = boardId
      · rw [hself]
        exact List.mem_cons_self
      · refine List.mem_cons_of_mem _ (hrest.passes b hb ?_)
        intro dirtySince hsince
        rcases (hkeeps b fun heq => absurd heq hself).dirtySince with hsame | hnone
        · exact hage dirtySince (hsame ▸ hsince)
        · rw [hnone] at hsince
          cases hsince

theorem loopDone_persistLoop (cfg : Config) (o : PersistDirtyBoardsOptions) (outside : Outside)
    (boardIds : List String) (s : Server) :
    LoopDone o outside boardIds s (persistLoop cfg o outside boardIds s) := by
  induction boardIds generalizing s with
  | nil => exact loopDone_nil
  | cons boardId boardIds ih =>
    unfold persistLoop
    split
    · next hyoung => exact (ih s).skip hyoung
    · exact (ih _).attempt (attempts_markers cfg outside boardId (max 1 o.retryAttempts) s)

end loop

/-! ### A call is a round -/

/-- The old boards that are still in the index. -/
def queue (old : List String) (s : Server) : List String :=
  old.filter fun boardId => (s.redis boardId).dirtyByAge.isSome

/-- The boards of the index, the old ones first, with the age of the old ones. -/
structure Aged (o : PersistDirtyBoardsOptions) (now : Nat) (old younger : List String)
    (s : Server) : Prop where
  nodup : (old ++ younger).Nodup
  score : ∀ b ∈ old, ∀ score, (s.redis b).dirtyByAge = some score → score + o.minDirtyAgeMs ≤ now
  since : ∀ b ∈ old, (s.redis b).dirtyByAge ≠ none → ∀ dirtySince,
    (s.redis b).dirtySince = some dirtySince → dirtySince + o.minDirtyAgeMs ≤ now

section round
variable {cfg : Config} {o : PersistDirtyBoardsOptions} {outside : Outside} {now : Nat}
  {old younger : List String} {s : Server} {fails : String → Bool}

/-- The boards of a call: the first of the old ones, and younger ones where there is room. -/
theorem dirtyBoardIds_eq (haged : Aged o now old younger s) (hnow : now ≤ outside.now) :
    ∃ ys, (∀ b ∈ ys, b ∈ younger) ∧
      dirtyBoardIds o outside (old ++ younger) s = (queue old s).take o.limit ++ ys := by
  have hqueue : old.filter (isInRange o outside s) = queue old s := by
    apply List.filter_congr
    intro b hb
    unfold isInRange
    cases hscore : (s.redis b).dirtyByAge with
    | none => rfl
    | some score =>
      have hold := haged.score b hb score hscore
      have hin : score + o.minDirtyAgeMs ≤ outside.now := by omega
      simp [hin]
  unfold dirtyBoardIds
  rw [List.filter_append, List.take_append, hqueue]
  exact ⟨_, fun b hb => (List.mem_filter.mp (List.mem_of_mem_take hb)).1, rfl⟩

/-- Which old boards a call passes on. -/
theorem mem_passed_iff (haged : Aged o now old younger s)
    (hnow : now ≤ outside.now ∧ ∀ b, now ≤ outside.clock b) {b : String} (hb : b ∈ old) :
    b ∈ (persistDirtyBoards cfg o outside (old ++ younger) s).passed ↔
      b ∈ (queue old s).take o.limit := by
  have hdone := loopDone_persistLoop cfg o outside (dirtyBoardIds o outside (old ++ younger) s) s
  obtain ⟨ys, hys, hids⟩ := dirtyBoardIds_eq haged hnow.1
  -- the younger ones of the window are other boards
  have hyounger : b ∉ ys := fun hmem => List.disjoint_of_nodup_append haged.nodup hb (hys b hmem)
  have hwindow : b ∈ dirtyBoardIds o outside (old ++ younger) s ↔
      b ∈ (queue old s).take o.limit := by
    rw [hids, List.mem_append]
    exact or_iff_left hyounger
  rw [← hwindow]
  constructor
  · exact hdone.sub b
  · intro hmem
    have hindexed : (s.redis b).dirtyByAge ≠ none := by
      have hqueued := (List.mem_filter.mp (List.mem_of_mem_take (hwindow.mp hmem))).2
      exact Option.isSome_iff_ne_none.mp hqueued
    refine hdone.passes b hmem fun dirtySince hsince => ?_
    have hold := haged.since b hb hindexed dirtySince hsince
    have hclock := hnow.2 b
    omega

/-- What a call leaves of the old boards. -/
theorem queue_persistDirtyBoards (haged : Aged o now old younger s)
    (hnow : now ≤ outside.now ∧ ∀ b, now ≤ outside.clock b)
    (hthrows : ∀ b ∈ (persistDirtyBoards cfg o outside (old ++ younger) s).passed, b ∈ old →
      (b ∈ (persistDirtyBoards cfg o outside (old ++ younger) s).persisted ↔ fails b = false)) :
    queue old (persistDirtyBoards cfg o outside (old ++ younger) s).server =
      RetryQueue.round o.limit fails (queue old s) := by
  have hdone : LoopDone o outside _ s (persistDirtyBoards cfg o outside (old ++ younger) s) :=
    loopDone_persistLoop cfg o outside (dirtyBoardIds o outside (old ++ younger) s) s
  have hpassed : ∀ b ∈ old, b ∈ (persistDirtyBoards cfg o outside (old ++ younger) s).passed ↔
      b ∈ (queue old s).take o.limit := fun b hb => mem_passed_iff haged hnow hb
  generalize persistDirtyBoards cfg o outside (old ++ younger) s = outcome at *
  have hqueue : ∀ b ∈ queue old s, b ∈ old := fun b hb => (List.mem_filter.mp hb).1
  -- the index loses what was persisted, and nothing else
  have hleft : queue old outcome.server = (queue old s).filter fun b => b ∉ outcome.persisted := by
    unfold queue
    rw [List.filter_filter]
    apply List.filter_congr
    intro b hb
    by_cases hmem : b ∈ outcome.persisted
    · simp [hmem, hdone.leaves b hmem]
    · simp [hmem, (hdone.stays b hmem).dirtyByAge]
  have hnodup : (queue old s).Nodup := (List.nodup_append.mp haged.nodup).1.filter _
  unfold RetryQueue.round
  rw [hleft]
  nth_rewrite 1 [← List.take_append_drop o.limit (queue old s)]
  rw [List.filter_append]
  congr 1
  · -- of the window, those stay that fail
    apply List.filter_congr
    intro b hb
    have hold := hqueue b (List.mem_of_mem_take hb)
    have hthrow := hthrows b ((hpassed b hold).mpr hb) hold
    cases hfails : fails b <;> simp [hthrow, hfails]
  · -- the call does not get to the others
    rw [List.filter_eq_self]
    intro b hb
    have hold := hqueue b (List.mem_of_mem_drop hb)
    rw [decide_eq_true_eq]
    intro hmem
    have htaken := (hpassed b hold).mp (hdone.persisted b hmem)
    exact List.disjoint_take_drop hnodup (Nat.le_refl _) htaken hb

theorem Aged.persistDirtyBoards (haged : Aged o now old younger s) (cfg : Config)
    (outside : Outside) (ids : List String) :
    Aged o now old younger (persistDirtyBoards cfg o outside ids s).server := by
  have hdone : LoopDone o outside _ s (DirtyBoards.persistDirtyBoards cfg o outside ids s) :=
    loopDone_persistLoop cfg o outside (dirtyBoardIds o outside ids s) s
  generalize DirtyBoards.persistDirtyBoards cfg o outside ids s = outcome at hdone ⊢
  have hkept : ∀ b, (outcome.server.redis b).dirtyByAge ≠ none →
      KeepsMarkers s outcome.server b := by
    -- what is still in the index was not persisted
    intro b hindexed
    exact hdone.stays b fun hmem => hindexed (hdone.leaves b hmem)
  constructor
  · exact haged.nodup
  · intro b hb score hscore
    have hkeep := hkept b (by simp [hscore])
    exact haged.score b hb score (hkeep.dirtyByAge ▸ hscore)
  · intro b hb hindexed dirtySince hsince
    have hkeep := hkept b hindexed
    rw [hkeep.dirtyByAge] at hindexed
    rcases hkeep.dirtySince with hsame | hnone
    · exact haged.since b hb hindexed dirtySince (hsame ▸ hsince)
    · rw [hnone] at hsince
      cases hsince

end round

/-! ### Calls are rounds -/

/-- Which old boards some calls pass on: those that as many rounds look at. -/
theorem mem_passed_calls_iff {cfg : Config} {o : PersistDirtyBoardsOptions} {now : Nat}
    {old younger : List String} {s : Server} {fails : String → Bool} {outsides : List Outside}
    (haged : Aged o now old younger s)
    (hlater : ∀ outside ∈ outsides, now ≤ outside.now ∧ ∀ b, now ≤ outside.clock b)
    (hthrows : ∀ outcome ∈ calls cfg o (old ++ younger) outsides s, ∀ b ∈ outcome.passed, b ∈ old →
      (b ∈ outcome.persisted ↔ fails b = false)) {b : String} (hb : b ∈ old) :
    (∃ outcome ∈ calls cfg o (old ++ younger) outsides s, b ∈ outcome.passed) ↔
      ∃ j < outsides.length,
        b ∈ (RetryQueue.rounds o.limit fails j (queue old s)).take o.limit := by
  induction outsides generalizing s with
  | nil => simp [calls]
  | cons outside outsides ih =>
    have hnow := hlater outside List.mem_cons_self
    have hfirst := hthrows _ List.mem_cons_self
    have hrest := ih (haged.persistDirtyBoards cfg outside (old ++ younger))
      (fun later hmem => hlater later (List.mem_cons_of_mem _ hmem))
      (fun outcome hmem => hthrows outcome (List.mem_cons_of_mem _ hmem))
    rw [queue_persistDirtyBoards haged hnow hfirst] at hrest
    have hcalls : calls cfg o (old ++ younger) (outside :: outsides) s =
        persistDirtyBoards cfg o outside (old ++ younger) s ::
          calls cfg o (old ++ younger) outsides
            (persistDirtyBoards cfg o outside (old ++ younger) s).server := rfl
    rw [hcalls, List.exists_mem_cons_iff, mem_passed_iff haged hnow hb, hrest]
    constructor
    · intro h
      rcases h with hmem | ⟨j, hj, hmem⟩
      · exact ⟨0, Nat.succ_pos _, hmem⟩
      · exact ⟨j + 1, Nat.succ_lt_succ hj, hmem⟩
    · intro h
      obtain ⟨j, hj, hmem⟩ := h
      cases j with
      | zero => exact .inl hmem
      | succ j => exact .inr ⟨j, Nat.lt_of_succ_lt_succ hj, hmem⟩

/-- A list in order, split by a property that what comes before keeps. -/
theorem filter_append_filter_not {α : Type} {R : α → α → Prop} {p : α → Bool} {l : List α}
    (hl : l.Pairwise R) (hp : ∀ a ∈ l, ∀ b ∈ l, R a b → p b = true → p a = true) :
    l.filter p ++ l.filter (fun a => !p a) = l := by
  induction l with
  | nil => rfl
  | cons a l ih =>
    obtain ⟨hfirst, hrest⟩ := List.pairwise_cons.mp hl
    have ih := ih hrest fun a ha b hb =>
      hp a (List.mem_cons_of_mem _ ha) b (List.mem_cons_of_mem _ hb)
    cases ha : p a with
    | true => simp [ha, ih]
    | false =>
      -- then nothing behind has the property
      have hnone : l.filter p = [] := by
        rw [List.filter_eq_nil_iff]
        intro b hb hpb
        have hpa := hp a List.mem_cons_self b (List.mem_cons_of_mem _ hb) (hfirst b hb) hpb
        rw [ha] at hpa
        cases hpa
      rw [hnone, List.nil_append] at ih
      simp [ha, hnone, ih]

section run
variable {cfg : Config} {o : PersistDirtyBoardsOptions} {fails : String → Bool} {now : Nat}
  {ids : List String} {s : Server} {outsides : List Outside}

theorem isOld_of_comesBefore (h : DirtyIndex ids s) {a b : String} (ha : a ∈ ids)
    (hab : ComesBefore s a b) (hb : isOld o now s b = true) : isOld o now s a = true := by
  obtain ⟨score, hscore⟩ := Option.ne_none_iff_exists'.mp ((h.mem a).mp ha)
  unfold isOld at hb ⊢
  cases hother : (s.redis b).dirtyByAge with
  | none =>
    rw [hother] at hb
    cases hb
  | some later =>
    have hle : score ≤ later := by
      unfold ComesBefore at hab
      rw [hscore, hother] at hab
      simp only [Option.getD_some] at hab
      omega
    rw [hother] at hb
    rw [hscore]
    simp only [decide_eq_true_eq] at hb ⊢
    omega

theorem DirtyIndex.split (h : DirtyIndex ids s) (o : PersistDirtyBoardsOptions) (now : Nat) :
    oldBoards o now ids s ++ ids.filter (fun b => !isOld o now s b) = ids :=
  filter_append_filter_not h.sorted fun _ ha _ _ hab hb => isOld_of_comesBefore h ha hab hb

theorem DirtyIndex.aged (h : DirtyIndex ids s) (o : PersistDirtyBoardsOptions) (now : Nat) :
    Aged o now (oldBoards o now ids s) (ids.filter fun b => !isOld o now s b) s := by
  have hold : ∀ b ∈ oldBoards o now ids s, ∀ score, (s.redis b).dirtyByAge = some score →
      score + o.minDirtyAgeMs ≤ now := by
    intro b hb score hscore
    have hisOld := (List.mem_filter.mp hb).2
    unfold isOld at hisOld
    rw [hscore] at hisOld
    exact of_decide_eq_true hisOld
  constructor
  · rw [h.split o now]
    exact h.nodup
  · exact hold
  · intro b hb hindexed dirtySince hsince
    obtain ⟨score, hscore⟩ := Option.ne_none_iff_exists'.mp hindexed
    have hage := hold b hb score hscore
    have hle := h.dirtySince b score dirtySince hscore hsince
    omega

theorem DirtyIndex.queue (h : DirtyIndex ids s) (o : PersistDirtyBoardsOptions) (now : Nat) :
    queue (oldBoards o now ids s) s = oldBoards o now ids s := by
  unfold DirtyBoards.queue
  rw [List.filter_eq_self]
  intro b hb
  exact Option.isSome_iff_ne_none.mpr ((h.mem b).mp (List.mem_filter.mp hb).1)

/-- Which old boards a run passes on. -/
theorem FailingRun.passed_iff (h : FailingRun cfg o fails now ids s outsides) {b : String}
    (hb : b ∈ oldBoards o now ids s) :
    (∃ outcome ∈ calls cfg o ids outsides s, b ∈ outcome.passed) ↔
      b ∈ (oldBoards o now ids s).take
        (RetryQueue.examined o.limit fails (oldBoards o now ids s) outsides.length) := by
  have hsplit := h.index.split o now
  have hthrows := h.throws
  rw [← hsplit] at hthrows
  have hpassed := mem_passed_calls_iff (h.index.aged o now) h.later
    (fun outcome hmem b hpassed hold => hthrows outcome hmem b hpassed (hsplit.symm ▸ hold)) hb
  rw [hsplit, h.index.queue o now, RetryQueue.looked_iff] at hpassed
  exact hpassed

/-- Behind `limit` boards that fail no board is passed on, whatever the number of calls. -/
theorem FailingRun.not_passed_of_limit_failing (h : FailingRun cfg o fails now ids s outsides)
    {front back : List String} (hold : oldBoards o now ids s = front ++ back)
    (hfront : o.limit ≤ (front.filter fails).length) :
    ∀ b ∈ back, ∀ outcome ∈ calls cfg o ids outsides s, b ∉ outcome.passed := by
  intro b hb outcome hmem hpassed
  have hbold : b ∈ oldBoards o now ids s := by
    rw [hold]
    exact List.mem_append_right _ hb
  have hnodup : (oldBoards o now ids s).Nodup := h.index.nodup.filter _
  have htaken := (h.passed_iff hbold).mp ⟨outcome, hmem, hpassed⟩
  have hfailing : o.limit ≤ RetryQueue.failing fails (oldBoards o now ids s) front.length := by
    unfold RetryQueue.failing
    rw [hold, List.take_left]
    exact hfront
  have hexamined := RetryQueue.examined_le hfailing outsides.length
  have hinFront : b ∈ (oldBoards o now ids s).take front.length :=
    List.take_subset_take_left _ hexamined htaken
  rw [hold] at hinFront hnodup
  rw [List.take_left] at hinFront
  exact List.disjoint_of_nodup_append hnodup hinFront hb

/-- In as many calls as the old boards need, every board that does not fail is passed to
    `persistBoard` exactly when the failing ones leave room. -/
theorem healthyPassed_iff (h : FailingRun cfg o fails now ids s outsides)
    (hcalls : outsides.length = callsNeeded o (oldBoards o now ids s).length) :
    HealthyPassed cfg o fails now ids s outsides ↔ LeavesRoom o fails (oldBoards o now ids s) := by
  unfold HealthyPassed LeavesRoom
  rw [← hcalls]
  constructor
  · intro hpassed b hb hhealthy
    exact (h.passed_iff hb).mp (hpassed b hb hhealthy)
  · intro hroom b hb hhealthy
    exact (h.passed_iff hb).mpr (hroom b hb hhealthy)

end run

/-! ### Two boards -/

def healthyBoard : String := "aaaaaaaa-aaaa-4aaa-8aaa-aaaaaaaaaaaa"

def failingBoard : String := "bbbbbbbb-bbbb-4bbb-8bbb-bbbbbbbbbbbb"

/-- An element of a kind that the table refuses. -/
def refusedElement : BoardElement := ⟨"n", AList.singleton "kind" (.str "UNKNOWN")⟩

/-- A new board with nothing to write, and one that Postgres refuses, marked dirty at these
    times. -/
def twoBoards (healthySince failingSince : Nat) : Server where
  redis := fun boardId =>
    if boardId = healthyBoard then { seq := some 1, dirtyByAge := some healthySince }
    else if boardId = failingBoard then
      { seq := some 1
        elements := AList.singleton "n" refusedElement
        dirtyElementIds := AList.singleton "n" ()
        dirtyByAge := some failingSince }
    else {}
  db :=
    { boards := (AList.singleton healthyBoard ()).insert failingBoard ()
      elements := ∅ }

/-- A call at the time 100, with both stores in reach. -/
def callAt100 : Outside := ⟨100, fun _ => 100, fun _ _ => false⟩

def isFailingBoard (boardId : String) : Bool := boardId == failingBoard

theorem dirtyIndex_twoBoards {ids : List String} {healthySince failingSince : Nat}
    (hnodup : ids.Nodup) (hids : ∀ b, b ∈ ids ↔ b = healthyBoard ∨ b = failingBoard)
    (hsorted : ids.Pairwise (ComesBefore (twoBoards healthySince failingSince))) :
    DirtyIndex ids (twoBoards healthySince failingSince) where
  nodup := hnodup
  mem := by
    intro b
    rw [hids]
    unfold twoBoards
    by_cases hhealthy : b = healthyBoard
    · simp [hhealthy]
    · by_cases hfailing : b = failingBoard
      · have hne : failingBoard ≠ healthyBoard := by decide
        simp [hfailing, hne]
      · simp [hhealthy, hfailing]
  sorted := hsorted
  dirtySince := by
    intro b score dirtySince _ hsince
    unfold twoBoards at hsince
    dsimp only at hsince
    split at hsince
    · cases hsince
    · split at hsince
      · cases hsince
      · cases hsince

theorem failingRun_twoBoards {ids : List String} {healthySince failingSince : Nat}
    {outsides : List Outside} (hnodup : ids.Nodup)
    (hids : ∀ b, b ∈ ids ↔ b = healthyBoard ∨ b = failingBoard)
    (hsorted : ids.Pairwise (ComesBefore (twoBoards healthySince failingSince)))
    (houtsides : ∀ outside ∈ outsides, outside = callAt100)
    (hthrows : ∀ outcome ∈
      calls {} (.ofNumber 1) ids outsides (twoBoards healthySince failingSince),
      ∀ b ∈ outcome.passed, (b ∈ outcome.persisted ↔ isFailingBoard b = false)) :
    FailingRun {} (.ofNumber 1) isFailingBoard 100 ids (twoBoards healthySince failingSince)
      outsides where
  index := dirtyIndex_twoBoards hnodup hids hsorted
  later := by
    intro outside hmem
    rw [houtsides outside hmem]
    exact ⟨Nat.le_refl _, fun _ => Nat.le_refl _⟩
  throws := fun outcome hmem b hb _ => hthrows outcome hmem b hb

instance (s : Server) (a b : String) : Decidable (ComesBefore s a b) := by
  unfold ComesBefore
  infer_instance

/-- With the failing board behind the other one, two calls of one board each get to both. -/
theorem healthyPassed_failingBehind :
    HealthyPassed {} (.ofNumber 1) isFailingBoard 100 [healthyBoard, failingBoard] (twoBoards 1 2)
      [callAt100, callAt100] :=
  (healthyPassed_iff
    (failingRun_twoBoards (by decide) (by simp) (by decide) (by simp) (by decide)) (by decide)).mpr
    (by
      unfold LeavesRoom
      decide)

/-- With the failing board in front, they never get to the other. -/
theorem failing_board_blocks :
    ¬ ∀ (cfg : Config) (o : PersistDirtyBoardsOptions) (fails : String → Bool) (now : Nat)
      (ids : List String) (s : Server) (outsides : List Outside),
      FailingRun cfg o fails now ids s outsides →
        outsides.length = callsNeeded o (oldBoards o now ids s).length →
        HealthyPassed cfg o fails now ids s outsides := by
  intro h
  have hpassed := h {} (.ofNumber 1) isFailingBoard 100 [failingBoard, healthyBoard] (twoBoards 2 1)
    [callAt100, callAt100]
    (failingRun_twoBoards (by decide) (by simp [or_comm]) (by decide) (by simp) (by decide))
    (by decide) healthyBoard (by decide) (by decide)
  revert hpassed
  decide

end Notebortt.DirtyBoards
