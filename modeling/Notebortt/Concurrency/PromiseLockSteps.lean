import Notebortt.Concurrency.PromiseLocks

/-! # The promise-chain locks keep their line

    One lemma for each step: the job of a suspended call, the two jobs of the
    promise that it has put in the map, the end of its task, and a new call. -/

open Transition
open Promises (Heap Job Outcome)

namespace Notebortt.PromiseLocks

variable {Call : Type} [DecidableEq Call]

/-! ### A call goes on -/

section steps
variable {target : Call → Target} {s s' : State Call} {c c' : Call}

omit [DecidableEq Call] in
/-- Of calls in a line that have not left, the first is the only one that can go on. -/
theorem eq_cons_of_behind {l : List Call} (hbehind : l.Pairwise (Behind s))
    (hstay : ∀ d ∈ l, ¬ s.Left d) (hmem : c ∈ l)
    (hprevious : s.heap.settled (s.previous c) = some .fulfilled) : ∃ rest, l = c :: rest := by
  cases l with
  | nil => cases hmem
  | cons first rest =>
    rcases List.mem_cons.mp hmem with rfl | hrest
    · exact ⟨rest, rfl⟩
    · have hleft := ((List.pairwise_cons.mp hbehind).1 c hrest hprevious).1
      exact absurd hleft (hstay first List.mem_cons_self)

omit [DecidableEq Call] in
/-- The first that waits is the one that goes on. -/
theorem waiting_eq_cons (h : Inv target s) (hc : c ∈ s.called) (hwaiting : s.phase c = .waiting)
    (hprevious : s.heap.settled (s.previous c) = some .fulfilled) :
    ∃ rest, c ∉ rest ∧
      (s.callsOn target (target c)).filter (fun c => s.phase c = .waiting) = c :: rest := by
  have hmem : c ∈ (s.callsOn target (target c)).filter fun c => s.phase c = .waiting :=
    List.mem_filter.mpr ⟨mem_callsOn.mpr ⟨hc, rfl⟩, decide_eq_true hwaiting⟩
  have hstay : ∀ d ∈ (s.callsOn target (target c)).filter fun c => s.phase c = .waiting,
      ¬ s.Left d :=
    fun d hd => not_left_of_phase (of_decide_eq_true (List.mem_filter.mp hd).2) nofun
  obtain ⟨rest, hrest⟩ := eq_cons_of_behind ((h.behind (target c)).filter _) hstay hmem hprevious
  have hnodup : (c :: rest).Nodup := hrest ▸ (h.line.nodup.filter _).filter _
  exact ⟨rest, (List.nodup_cons.mp hnodup).1, hrest⟩

/-- The task that is called now is the next one in the line of its board. -/
theorem starts_resume (h : Inv target s) (hc : c ∈ s.called) (hwaiting : s.phase c = .waiting)
    (hprevious : s.heap.settled (s.previous c) = some .fulfilled) (t : Target) :
    s.callsOn target t =
      (s.started ++ [c]).filter (fun c => target c = t) ++
        (s.callsOn target t).filter
          fun c' => Function.update s.phase c .running c' = .waiting := by
  have hstarts := h.starts t
  have hfilter : ((s.callsOn target t).filter
      fun c' => Function.update s.phase c .running c' = .waiting) =
      ((s.callsOn target t).filter fun c => s.phase c = .waiting).filter fun c' => c' ≠ c := by
    rw [List.filter_filter]
    refine List.filter_congr fun c' _ => ?_
    by_cases heq : c' = c
    · simp [heq]
    · simp [heq]
  rw [hfilter, List.filter_append]
  by_cases ht : target c = t
  · subst ht
    obtain ⟨rest, hrest, hlist⟩ := waiting_eq_cons h hc hwaiting hprevious
    have hothers : rest.filter (fun c' => c' ≠ c) = rest :=
      List.filter_eq_self.mpr fun c' hc' => decide_eq_true fun heq : c' = c => hrest (heq ▸ hc')
    have hcons : (c :: rest).filter (fun c' => c' ≠ c) = rest := by
      rw [List.filter_cons_of_neg (by simp)]
      exact hothers
    rw [hlist] at hstarts ⊢
    rw [hcons, hstarts, State.startedOn]
    simp
  · have hothers : ((s.callsOn target t).filter fun c => s.phase c = .waiting).filter
        (fun c' => c' ≠ c) = (s.callsOn target t).filter fun c => s.phase c = .waiting := by
      refine List.filter_eq_self.mpr fun c' hc' => ?_
      have htarget := (mem_callsOn.mp (List.mem_filter.mp hc').1).2
      exact decide_eq_true fun heq : c' = c => ht (heq ▸ htarget)
    have hnone : [c].filter (fun c => target c = t) = [] := by simp [ht]
    rw [hothers, hnone, List.append_nil]
    exact hstarts

theorem moves_resume : Moves s (s.afterResume c) c := by
  refine ⟨rfl, rfl, rfl, fun c' hne => Function.update_of_ne hne _ _, fun j hj => ?_,
    fun _ _ _ => rfl, fun _ _ ho => ho⟩
  exact List.mem_erase_of_ne fun heq => hj (.inl heq)

theorem inv_resume (h : Inv target s) (hc : c ∈ s.called) (hwaiting : s.phase c = .waiting)
    (hprevious : s.heap.settled (s.previous c) = some .fulfilled) :
    Inv target (s.afterResume c) := by
  have hlinked := h.linked c hc
  have hself : (s.afterResume c).phase c = .running := Function.update_self ..
  refine h.move moves_resume hc ⟨.inr (.inl hself), ?_, fun _ => hprevious, ?_, ?_, ?_⟩
    (h.jobs_nodup.erase _) (starts_resume h hc hwaiting hprevious)
  · refine iff_of_false h.jobs_nodup.not_mem_erase ?_
    rw [hself]
    exact nofun
  · intro _
    exact hlinked.pending (not_left_of_phase hwaiting nofun)
  · intro hleft
    exact absurd hleft (not_left_of_phase hself nofun)
  · refine hlinked.stage.keep rfl ?_ ?_ rfl fun _ _ ho => ho
    · exact List.mem_erase_of_ne nofun
    · exact List.mem_erase_of_ne nofun

/-! ### The promise in the map goes on -/

theorem mem_jobs_callback (h : Inv target s) (j : Job (Promise Call) Call) :
    j ∈ (s.afterCallback c).heap.jobs ↔
      j ≠ s.callbackJob c ∧ j ∈ s.heap.jobs ∨ j = adoptJob c := by
  show j ∈ s.heap.jobs.erase (s.callbackJob c) ++ [adoptJob c] ↔ _
  rw [List.mem_append, h.jobs_nodup.mem_erase_iff, List.mem_singleton]

theorem moves_callback (h : Inv target s) : Moves s (s.afterCallback c) c := by
  refine ⟨rfl, rfl, rfl, fun _ _ => rfl, fun j hj => ?_, fun _ _ _ => rfl, fun _ _ ho => ho⟩
  refine (mem_jobs_callback h j).trans ⟨?_, fun hj' => .inl ⟨fun heq => hj (.inr (.inl heq)), hj'⟩⟩
  rintro (⟨_, hj'⟩ | heq)
  · exact hj'
  · exact absurd (.inr (.inr heq)) hj

omit [DecidableEq Call] in
/-- Before the callback has run the promise does not take over `current`. -/
theorem registered_of_mem (h : ChainStage s c) (hmem : s.callbackJob c ∈ s.heap.jobs) :
    adoptJob c ∉ s.heap.jobs ∧ s.heap.settled (.chained c) = none := by
  cases h with
  | registered callback adopt pending => exact ⟨adopt, pending⟩
  | adopting callback adopt pending previous => exact absurd hmem callback
  | settled callback adopt fulfilled previous current => exact absurd hmem callback

theorem inv_callback (h : Inv target s) (hc : c ∈ s.called) (hmem : s.callbackJob c ∈ s.heap.jobs)
    (hprevious : s.heap.settled (s.previous c) = some .fulfilled) :
    Inv target (s.afterCallback c) := by
  have hlinked := h.linked c hc
  obtain ⟨hadopt, hpending⟩ := registered_of_mem hlinked.stage hmem
  refine h.move (moves_callback h) hc
    ⟨hlinked.phase, ?_, hlinked.started, hlinked.pending, hlinked.released, ?_⟩ ?_
    (h.starts_of_moves (moves_callback h) rfl Iff.rfl)
  · refine (mem_jobs_callback h _).trans
      ⟨?_, fun hwaiting => .inl ⟨nofun, hlinked.resumes.mpr hwaiting⟩⟩
    rintro (⟨_, hj⟩ | heq)
    · exact hlinked.resumes.mp hj
    · cases heq
  · refine .adopting ?_ ((mem_jobs_callback h _).mpr (.inr rfl)) hpending hprevious
    intro hj
    rcases (mem_jobs_callback h _).mp hj with ⟨hne, _⟩ | heq
    · exact hne rfl
    · cases heq
  · refine List.nodup_append.mpr ⟨h.jobs_nodup.erase _, List.nodup_singleton _, ?_⟩
    intro j hj j' hj' heq
    rw [List.mem_singleton.mp hj'] at heq
    exact hadopt (heq ▸ List.mem_of_mem_erase hj)

theorem moves_adopt : Moves s (s.afterAdopt c) c := by
  refine ⟨rfl, rfl, rfl, fun _ _ => rfl, fun j hj => ?_, fun p _ hne => ?_, fun p o ho => ?_⟩
  · exact List.mem_erase_of_ne fun heq => hj (.inr (.inr heq))
  · exact Promises.settle_of_ne hne
  · exact Promises.settle_mono ho

omit [DecidableEq Call] in
/-- The promise takes over `current` behind the promise that the call has found. -/
theorem adopting_of_mem (h : ChainStage s c) (hmem : adoptJob c ∈ s.heap.jobs) :
    s.callbackJob c ∉ s.heap.jobs ∧ s.heap.settled (.chained c) = none ∧
      s.heap.settled (s.previous c) = some .fulfilled := by
  cases h with
  | registered callback adopt pending => exact absurd hmem adopt
  | adopting callback adopt pending previous => exact ⟨callback, pending, previous⟩
  | settled callback adopt fulfilled previous current => exact absurd hmem adopt

theorem inv_adopt (h : Inv target s) (hc : c ∈ s.called) (hmem : adoptJob c ∈ s.heap.jobs)
    (hcurrent : s.heap.settled (.current c) = some .fulfilled) : Inv target (s.afterAdopt c) := by
  have hlinked := h.linked c hc
  have hmono := (moves_adopt : Moves s (s.afterAdopt c) c).settled_mono
  obtain ⟨hcallback, hpending, hprevious⟩ := adopting_of_mem hlinked.stage hmem
  have hsame : (s.afterAdopt c).heap.settled (.current c) = s.heap.settled (.current c) :=
    Promises.settle_of_ne nofun
  refine h.move moves_adopt hc ⟨hlinked.phase, ?_, fun hphase => hmono _ _ (hlinked.started hphase),
    fun hleft => hsame.trans (hlinked.pending hleft),
    fun hleft => hsame.trans (hlinked.released hleft), ?_⟩
    (h.jobs_nodup.erase _) (h.starts_of_moves moves_adopt rfl Iff.rfl)
  · have hne : s.resumeJob c ≠ adoptJob c := nofun
    exact (List.mem_erase_of_ne hne).trans hlinked.resumes
  · refine .settled ?_ h.jobs_nodup.not_mem_erase (Promises.settle_self hpending)
      (hmono _ _ hprevious) (hsame.trans hcurrent)
    exact fun hj => hcallback (List.mem_of_mem_erase hj)

/-! ### A task ends -/

theorem moves_finish {result : Result} : Moves s (s.afterFinish c result) c := by
  refine ⟨rfl, rfl, rfl, fun c' hne => Function.update_of_ne hne _ _, fun _ _ => Iff.rfl,
    fun p hne _ => ?_, fun p o ho => ?_⟩
  · exact Promises.settle_of_ne hne
  · exact Promises.settle_mono ho

theorem inv_finish (h : Inv target s) (hc : c ∈ s.called) (hrunning : s.phase c = .running)
    (result : Result) : Inv target (s.afterFinish c result) := by
  have hlinked := h.linked c hc
  have hpending := hlinked.pending (not_left_of_phase hrunning nofun)
  have hmono := (moves_finish : Moves s (s.afterFinish c result) c).settled_mono
  have hself : (s.afterFinish c result).phase c = .done result := Function.update_self ..
  have hwaiting : (s.afterFinish c result).phase c = .waiting ↔ s.phase c = .waiting := by
    rw [hself, hrunning]
    exact iff_of_false nofun nofun
  refine h.move moves_finish hc ⟨.inr (.inr ⟨result, hself⟩), hlinked.resumes.trans hwaiting.symm,
    ?_, ?_, ?_, ?_⟩ h.jobs_nodup (h.starts_of_moves moves_finish rfl hwaiting)
  · exact fun _ => hmono _ _ (hlinked.started (by simp [hrunning]))
  · exact fun hleft => absurd ⟨result, hself⟩ hleft
  · exact fun _ => Promises.settle_self hpending
  · exact hlinked.stage.keep rfl Iff.rfl Iff.rfl (Promises.settle_of_ne nofun) hmono

/-! ### A call is made -/

/-- What a new call finds: the promise of the last call on its board, or a resolved one. -/
theorem found_cases (h : Inv target s) (hc : c ∉ s.called) :
    (s.callsOn target (target c) = [] ∧
        s.found (target c) c = (.resolved c, s.heap.settle (.resolved c) .fulfilled) ∧
        (s.heap.settle (.resolved c) .fulfilled).settled (.resolved c) = some .fulfilled) ∨
      ∃ p, (s.callsOn target (target c)).getLast? = some p ∧
        s.found (target c) c = (.chained p, s.heap) := by
  have hlocks := h.line.locks (target c)
  unfold State.found
  cases hlast : (s.callsOn target (target c)).getLast? with
  | none =>
    rw [hlast] at hlocks
    rw [hlocks]
    exact .inl ⟨List.getLast?_eq_none_iff.mp hlast, rfl, Promises.settle_self (h.fresh c hc).1⟩
  | some p =>
    rw [hlast] at hlocks
    rw [hlocks]
    exact .inr ⟨p, rfl, rfl⟩

/-- What a new call does with the heap before it registers its jobs. -/
theorem found_heap (h : Inv target s) (hc : c ∉ s.called) :
    (s.found (target c) c).2.jobs = s.heap.jobs ∧
      (∀ p, p ≠ .resolved c → (s.found (target c) c).2.settled p = s.heap.settled p) ∧
      ∀ p o, s.heap.settled p = some o → (s.found (target c) c).2.settled p = some o := by
  rcases found_cases h hc with ⟨_, hfound, _⟩ | ⟨p, _, hfound⟩
  · rw [hfound]
    exact ⟨rfl, fun p hne => Promises.settle_of_ne hne, fun p o ho => Promises.settle_mono ho⟩
  · rw [hfound]
    exact ⟨rfl, fun _ _ => rfl, fun _ _ ho => ho⟩

omit [DecidableEq Call] in
/-- No job belongs to a call that has not been made. -/
theorem Inv.not_mem_of_fresh (h : Inv target s) (hc : c ∉ s.called)
    {j : Job (Promise Call) Call} (hj : j ∈ s.heap.jobs) : ¬ OwnJob s c j := by
  intro hown
  obtain ⟨c', hc', hown'⟩ := h.owned j hj
  exact hc (eq_of_ownJob hown hown' ▸ hc')

omit [DecidableEq Call] in
theorem ne_of_fresh (hc : c ∉ s.called) (hc' : c' ∈ s.called) : c' ≠ c := by
  rintro rfl
  exact hc hc'

/-- The lines after a new call. -/
theorem callsOn_enter (t : Target) :
    (s.enter (target c) c).callsOn target t =
      s.callsOn target t ++ if target c = t then [c] else [] := by
  show (s.called ++ [c]).filter (fun c => target c = t) = _
  rw [List.filter_append]
  split
  · next ht => simp [State.callsOn, ht]
  · next ht => simp [State.callsOn, ht]

/-- A new call, which waits, is the last of those in some phases. -/
theorem filter_callsOn_enter (hc : c ∉ s.called) (t : Target) (p : Phase → Bool)
    (hwaiting : p .waiting = true) :
    ((s.enter (target c) c).callsOn target t).filter
        (fun c' => p ((s.enter (target c) c).phase c')) =
      (s.callsOn target t).filter (fun c' => p (s.phase c')) ++
        if target c = t then [c] else [] := by
  have hold : (s.callsOn target t).filter (fun c' => p ((s.enter (target c) c).phase c')) =
      (s.callsOn target t).filter fun c' => p (s.phase c') := by
    refine List.filter_congr fun c' hc' => ?_
    rw [enter_phase_of_ne (ne_of_fresh hc (mem_callsOn.mp hc').1)]
  rw [callsOn_enter, List.filter_append, hold]
  split
  · simp [State.enter, hwaiting]
  · rfl

/-- A new call is the last in the line of its board. -/
theorem inLine_enter (h : Inv target s) (hc : c ∉ s.called) :
    InLine target (s.enter (target c) c) := by
  have hne : ∀ {t c'}, c' ∈ s.callsOn target t → c' ≠ c :=
    fun hc' => ne_of_fresh hc (mem_callsOn.mp hc').1
  refine ⟨?_, ?_, ?_, ?_⟩
  · exact List.nodup_append.mpr ⟨h.line.nodup, List.nodup_singleton c, by
      rintro a ha b hb rfl
      exact hc (List.mem_singleton.mp hb ▸ ha)⟩
  · intro t
    rw [callsOn_enter]
    show Function.update s.locks (target c) (some (.chained c)) t = _
    by_cases ht : target c = t
    · rw [if_pos ht, ← ht, Function.update_self]
      simp
    · rw [if_neg ht, Function.update_of_ne (Ne.symm ht), List.append_nil]
      exact h.line.locks t
  · intro t c' hc'
    rw [callsOn_enter] at hc'
    cases hline : s.callsOn target t with
    | nil =>
      rw [hline] at hc'
      by_cases ht : target c = t
      · rw [if_pos ht] at hc'
        obtain rfl : c = c' := by simpa using hc'
        rw [enter_previous_self]
        rcases found_cases h hc with ⟨_, hfound, _⟩ | ⟨p, hlast, _⟩
        · rw [hfound]
        · rw [ht, hline] at hlast
          cases hlast
      · rw [if_neg ht] at hc'
        cases hc'
    | cons first rest =>
      rw [hline] at hc'
      obtain rfl : first = c' := by simpa using hc'
      have hmem : first ∈ s.callsOn target t := by
        rw [hline]
        exact List.mem_cons_self
      rw [enter_previous_of_ne (hne hmem)]
      exact h.line.first t first (by rw [hline]; rfl)
  · intro t
    rw [callsOn_enter]
    have hold : (s.callsOn target t).IsChain fun p c' =>
        (s.enter (target c) c).previous c' = .chained p := by
      refine (h.line.chain t).imp_of_mem_imp fun p c' _ hc' hR => ?_
      rw [enter_previous_of_ne (hne hc')]
      exact hR
    by_cases ht : target c = t
    · rw [if_pos ht]
      refine List.isChain_append.mpr ⟨hold, .singleton _, ?_⟩
      intro p hp c' hc'
      obtain rfl : c = c' := by simpa using hc'
      rw [enter_previous_self]
      rcases found_cases h hc with ⟨hnone, _⟩ | ⟨p', hlast, hfound⟩
      · rw [← ht, hnone] at hp
        cases hp
      · rw [← ht, hlast] at hp
        rw [hfound, Option.some.inj hp]
    · rw [if_neg ht, List.append_nil]
      exact hold

/-- A new call adds its two jobs. -/
theorem jobs_enter (h : Inv target s) (hc : c ∉ s.called) :
    (s.enter (target c) c).heap.jobs = s.heap.jobs ++
      [(s.enter (target c) c).callbackJob c, (s.enter (target c) c).resumeJob c] := by
  rw [State.callbackJob, State.resumeJob, enter_previous_self, ← (found_heap h hc).1]
  show (s.found (target c) c).2.jobs ++ [_] ++ [_] = _
  exact List.append_assoc ..

theorem mem_jobs_enter (h : Inv target s) (hc : c ∉ s.called) (j : Job (Promise Call) Call) :
    j ∈ (s.enter (target c) c).heap.jobs ↔
      j ∈ s.heap.jobs ∨ j = (s.enter (target c) c).callbackJob c ∨
        j = (s.enter (target c) c).resumeJob c := by
  rw [jobs_enter h hc, List.mem_append, List.mem_cons, List.mem_singleton]

theorem own_enter (hne : c' ≠ c) {j : Job (Promise Call) Call} :
    OwnJob (s.enter (target c) c) c' j ↔ OwnJob s c' j :=
  ownJob_congr (enter_previous_of_ne hne)

/-- A new call leaves the jobs of the others. -/
theorem own_mem_enter (h : Inv target s) (hc : c ∉ s.called) (hne : c' ≠ c)
    {j : Job (Promise Call) Call} (hj : OwnJob s c' j) :
    j ∈ (s.enter (target c) c).heap.jobs ↔ j ∈ s.heap.jobs := by
  have hown : ¬ OwnJob (s.enter (target c) c) c j :=
    fun hj' => hne (eq_of_ownJob ((own_enter hne).mpr hj) hj')
  refine (mem_jobs_enter h hc j).trans ⟨?_, .inl⟩
  rintro (hold | hnew | hnew)
  · exact hold
  · exact absurd (.inr (.inl hnew)) hown
  · exact absurd (.inl hnew) hown

/-- The two jobs of a new call are not those of an earlier one. -/
theorem jobs_enter_nodup (h : Inv target s) (hc : c ∉ s.called) :
    (s.enter (target c) c).heap.jobs.Nodup := by
  have hnew : ∀ j ∈ s.heap.jobs, ¬ OwnJob (s.enter (target c) c) c j := by
    intro j hj hj'
    obtain ⟨c', hc', howned⟩ := h.owned j hj
    have hne := ne_of_fresh hc hc'
    exact hne (eq_of_ownJob ((own_enter hne).mpr howned) hj')
  rw [jobs_enter h hc]
  refine List.nodup_append.mpr ⟨h.jobs_nodup, by simp [State.callbackJob, State.resumeJob], ?_⟩
  rintro j hj j' hj' rfl
  rcases List.mem_cons.mp hj' with heq | hmem
  · exact hnew j hj (.inr (.inl heq))
  · exact hnew j hj (.inl (List.mem_singleton.mp hmem))

/-- The call that is made waits, and its promises are pending. -/
theorem linked_enter_self (h : Inv target s) (hc : c ∉ s.called) :
    Linked (s.enter (target c) c) c := by
  have hphase : (s.enter (target c) c).phase c = .waiting := enter_phase_self
  obtain ⟨_, hsettled, _⟩ := found_heap h hc
  have hnotLeft : ¬ (s.enter (target c) c).Left c := not_left_of_phase hphase nofun
  refine ⟨.inl hphase, ?_, fun hwaiting => absurd hphase hwaiting, fun _ => ?_,
    fun hleft => absurd hleft hnotLeft, .registered ?_ ?_ ?_⟩
  · exact iff_of_true ((mem_jobs_enter h hc _).mpr (.inr (.inr rfl))) hphase
  · exact (hsettled (.current c) nofun).trans (h.fresh c hc).2.1
  · exact (mem_jobs_enter h hc _).mpr (.inr (.inl rfl))
  · intro hadopt
    rcases (mem_jobs_enter h hc _).mp hadopt with hold | heq | heq
    · exact h.not_mem_of_fresh hc hold (.inr (.inr rfl))
    · cases heq
    · cases heq
  · exact (hsettled (.chained c) nofun).trans (h.fresh c hc).2.2

theorem linked_enter (h : Inv target s) (hc : c ∉ s.called)
    (hc' : c' ∈ (s.enter (target c) c).called) : Linked (s.enter (target c) c) c' := by
  rcases List.mem_append.mp hc' with hold | hnew
  · have hne := ne_of_fresh hc hold
    obtain ⟨_, hsettled, hmono⟩ := found_heap h hc
    exact (h.linked c' hold).keep (enter_previous_of_ne hne) (enter_phase_of_ne hne)
      (fun j hj => own_mem_enter h hc hne hj) (hsettled (.current c') nofun)
      (hsettled (.chained c') nofun) hmono
  · obtain rfl := List.mem_singleton.mp hnew
    exact linked_enter_self h hc

/-- A call is made. -/
theorem inv_call (h : Inv target s) (hidle : s.phase c = .idle) :
    Inv target (s.enter (target c) c) := by
  have hc : c ∉ s.called := fun hmem => (h.called c).mp hmem hidle
  have hcalled : ∀ c', c' ∈ (s.enter (target c) c).called ↔ c' ∈ s.called ∨ c' = c := by
    intro c'
    rw [enter_called, List.mem_append, List.mem_singleton]
  obtain ⟨_, hsettled, hmono⟩ := found_heap h hc
  refine ⟨inLine_enter h hc, ?_, ?_, fun c' hc' => linked_enter h hc hc', ?_, ?_,
    jobs_enter_nodup h hc, ?_⟩
  · intro c'
    rw [hcalled]
    by_cases heq : c' = c
    · subst heq
      refine iff_of_true (.inr rfl) ?_
      rw [enter_phase_self]
      exact nofun
    · rw [enter_phase_of_ne heq, ← h.called c', or_iff_left heq]
  · intro c' hc' hresolved
    rcases (hcalled c').mp hc' with hold | rfl
    · rw [enter_previous_of_ne (ne_of_fresh hc hold)] at hresolved
      exact hmono _ _ (h.resolved c' hold hresolved)
    · rw [enter_previous_self] at hresolved
      rcases found_cases h hc with ⟨_, hfound, hfulfilled⟩ | ⟨p, _, hfound⟩
      · show (s.found (target c') c').2.settled (.resolved c') = some .fulfilled
        rw [hfound]
        exact hfulfilled
      · rw [hfound] at hresolved
        cases hresolved
  · intro c' hc'
    have hnot : c' ∉ s.called ∧ c' ≠ c :=
      ⟨fun hold => hc' ((hcalled c').mpr (.inl hold)), fun heq => hc' ((hcalled c').mpr (.inr heq))⟩
    obtain ⟨hresolved, hcurrent, hchained⟩ := h.fresh c' hnot.1
    exact ⟨(hsettled _ (by simpa using hnot.2)).trans hresolved,
      (hsettled (.current c') nofun).trans hcurrent, (hsettled (.chained c') nofun).trans hchained⟩
  · intro j hj
    rcases (mem_jobs_enter h hc j).mp hj with hold | hnew | hnew
    · obtain ⟨c', hc', howned⟩ := h.owned j hold
      exact ⟨c', (hcalled c').mpr (.inl hc'), (own_enter (ne_of_fresh hc hc')).mpr howned⟩
    · exact ⟨c, (hcalled c).mpr (.inr rfl), .inr (.inl hnew)⟩
    · exact ⟨c, (hcalled c).mpr (.inr rfl), .inl hnew⟩
  · intro t
    rw [filter_callsOn_enter hc t (fun ph => ph = .waiting) rfl, callsOn_enter,
      ← List.append_assoc]
    exact congrArg (· ++ _) (h.starts t)

theorem step_inv (h : Inv target s) {l : Label Call} (hstep : step target s l = some s') :
    Inv target s' := by
  cases step_effect h hstep with
  | call idle => exact inv_call h idle
  | resume called waiting previous => exact inv_resume h called waiting previous
  | callback called mem previous => exact inv_callback h called mem previous
  | adopt called mem current => exact inv_adopt h called mem current
  | finish called running => exact inv_finish h called running _

omit [DecidableEq Call] in
theorem init_inv (h : Init s) : Inv target s := by
  have hcalls : ∀ t, s.callsOn target t = [] := by
    intro t
    rw [State.callsOn, h.called]
    rfl
  have hnone : ∀ c, c ∉ s.called := by
    intro c
    rw [h.called]
    exact List.not_mem_nil
  refine ⟨⟨?_, ?_, ?_, ?_⟩, ?_, fun c hc => absurd hc (hnone c), fun c hc => absurd hc (hnone c),
    ?_, ?_, ?_, ?_⟩
  · rw [h.called]
    exact .nil
  · intro t
    rw [h.locks, hcalls]
    rfl
  · intro t c hc
    rw [hcalls] at hc
    cases hc
  · intro t
    rw [hcalls]
    exact .nil
  · intro c
    rw [h.phase]
    exact iff_of_false (hnone c) fun hne => hne rfl
  · intro c _
    rw [h.heap]
    exact ⟨rfl, rfl, rfl⟩
  · intro j hj
    rw [h.heap] at hj
    cases hj
  · rw [h.heap]
    exact .nil
  · intro t
    rw [hcalls, State.startedOn, h.started]
    rfl

theorem reachable_inv (h : (system target).Reachable s) : Inv target s :=
  h.invariant (M := system target) (fun _ => init_inv) fun _ _ _ hinv hstep => step_inv hinv hstep

end steps

end Notebortt.PromiseLocks
