import DuckdbLerobot.Codec.Ledger

/-!
# The moves of the ledger

Each kind of move keeps `LedgerInvariant`, and `ledgerInvariant_move` says so for all of them. The
places of the jobs are compared as multisets for one batch at a time; a sum over the workers changes
by the share of the one worker that moves.
-/

set_option autoImplicit false

namespace DuckdbLerobot.Codec

open DuckdbLerobot.Library

/-! ## Every move keeps the invariant -/

/-- The stage of a call says less when its batch is off the list. -/
theorem StageInvariant.mono {account : Account} {discarded : List Nat} {listed listed' : Prop}
    {stage : CallStage} (h : StageInvariant account discarded listed stage)
    (hlisted : listed' → listed) : StageInvariant account discarded listed' stage := by
  cases stage with
  | fresh => exact ⟨h.1, h.2.1, fun hmem => h.2.2 (hlisted hmem)⟩
  | waiting => exact h
  | adding dropped => exact h
  | left => exact h

/-- Dropping batches without remaining jobs from the list. -/
theorem LedgerInvariant.prune {L : Ledger} (h : LedgerInvariant L) :
    LedgerInvariant { L with batches := L.liveBatches } :=
  { h with
    stages := fun call => (h.stages call).mono fun hmem => List.mem_of_mem_filter hmem
    listed := by
      intro batch hbatch
      exact List.mem_filter.mpr ⟨h.listed batch hbatch, by simpa using hbatch⟩
    nodup := h.nodup.filter _ }

/-- A larger pool. -/
theorem LedgerInvariant.grow {L : Ledger} (h : LedgerInvariant L) {pool : Nat}
    (hpool : L.pool ≤ pool) : LedgerInvariant { L with pool := pool } :=
  { h with
    places := by
      intro batch
      have htaken : takenIn pool L.footprints batch = takenIn L.pool L.footprints batch :=
        h.sum_grow hpool (Footprint.indexIn batch) rfl
      show _ + takenIn pool L.footprints batch + _ + _ = _
      rw [htaken]
      exact h.places batch
    remaining := fun batch => (h.remaining batch).trans
      (congrArg _ (h.sum_grow hpool (Footprint.remainingIn batch) rfl).symm)
    active := h.active.trans (h.sum_grow hpool Footprint.threads rfl).symm
    activeThreads := fun batch => (h.activeThreads batch).trans
      (h.sum_grow hpool (Footprint.threadsOf batch) rfl).symm
    activeWorkers := fun batch => (h.activeWorkers batch).trans
      (h.sum_grow hpool (Footprint.activeIn batch) rfl).symm
    pool := fun hqueue => Nat.lt_of_lt_of_le (h.pool hqueue) hpool
    outside := fun worker hworker => h.outside worker (Nat.le_trans hpool hworker) }

/-- A call leaves: it has no batch, or all jobs of its batch are counted. -/
theorem LedgerInvariant.leave {L : Ledger} (h : LedgerInvariant L) {call : Nat}
    (hdiscarded : L.discarded call = [])
    (hcompleted : (L.accounts call).completed = (L.accounts call).jobCount) :
    LedgerInvariant { L with stages := Function.update L.stages call .left } :=
  { h with
    stages := by
      apply forall_update (P := fun other stage => StageInvariant (L.accounts other)
        (L.discarded other) (other ∈ L.batches) stage) h.stages
      exact ⟨hdiscarded, hcompleted⟩ }

theorem LedgerInvariant.reject {L : Ledger} (h : LedgerInvariant L) {call pool requested : Nat}
    (hstage : L.stages call = .fresh) (hpool : L.pool ≤ pool) :
    LedgerInvariant { L with
      stages := Function.update L.stages call .left
      requested := Function.update L.requested call requested
      pool := pool } := by
  have hfresh := h.stages call
  simp only [hstage, StageInvariant] at hfresh
  have hcompleted : (L.accounts call).completed = 0 := by
    rw [h.completed call, (h.places_eq_zero hfresh.1).2.2.2, Multiset.card_zero]
  have hleft := (h.grow hpool).leave hfresh.2.1 (hcompleted.trans hfresh.1.symm)
  exact
    { hleft with
      requested := by
        apply update_cases (P := fun other count => (L.accounts other).jobCount = 0 ∨
          (L.accounts other).jobCount = count)
        · exact .inl hfresh.1
        · exact fun other _ => h.requested other }

/-- No worker has a job of a batch without jobs. -/
theorem LedgerInvariant.batch_ne {L : Ledger} (h : LedgerInvariant L) {batch : Nat}
    (hjobs : (L.accounts batch).jobCount = 0) {worker : Nat} {footprint : Footprint}
    (hheld : L.footprints worker = some footprint) : footprint.slot.batch ≠ batch := by
  rintro rfl
  have htaken := (h.places_eq_zero hjobs).2.1
  have hmem : footprint.slot.index ∈ takenIn L.pool L.footprints footprint.slot.batch := by
    apply Multiset.mem_sum.mpr
    refine ⟨worker, Finset.mem_range.mpr (h.worker_lt hheld), ?_⟩
    simp [hheld, Footprint.indexIn]
  rw [htaken] at hmem
  exact absurd hmem (Multiset.notMem_zero _)

/-- A share that only jobs of one batch have, when no worker has such a job. -/
theorem LedgerInvariant.sum_eq_zero {L : Ledger} (h : LedgerInvariant L) {batch : Nat}
    (hjobs : (L.accounts batch).jobCount = 0) (share : Option Footprint → Nat)
    (hnone : share none = 0)
    (hsome : ∀ footprint : Footprint, footprint.slot.batch ≠ batch → share (some footprint) = 0) :
    ∑ worker ∈ Finset.range L.pool, share (L.footprints worker) = 0 := by
  apply Finset.sum_eq_zero
  intro worker _
  cases hheld : L.footprints worker with
  | none => exact hnone
  | some footprint => exact hsome footprint (h.batch_ne hjobs hheld)

theorem countP_eq_card_queuedIn (queue : List Slot) (batch : Nat) :
    (queue.countP fun slot => slot.batch == batch) = Multiset.card (queuedIn queue batch) := by
  simp [queuedIn, List.countP_eq_length_filter]

theorem queuedIn_append (queue queue' : List Slot) (batch : Nat) :
    queuedIn (queue ++ queue') batch = queuedIn queue batch + queuedIn queue' batch := by
  simp [queuedIn]

/-- The jobs of one batch. -/
theorem queuedIn_of_batch {slots : List Slot} {batch : Nat}
    (hslots : ∀ slot ∈ slots, slot.batch = batch) :
    queuedIn slots batch = (slots.map Slot.index : List Nat) := by
  have hall : (slots.filter fun slot => slot.batch == batch) = slots :=
    List.filter_eq_self.mpr fun slot hslot => by simp [hslots slot hslot]
  rw [queuedIn, hall]

theorem queuedIn_of_other {slots : List Slot} {batch : Nat}
    (hslots : ∀ slot ∈ slots, slot.batch ≠ batch) : queuedIn slots batch = 0 := by
  have hnone : (slots.filter fun slot => slot.batch == batch) = [] :=
    List.filter_eq_nil_iff.mpr fun slot hslot => by simp [hslots slot hslot]
  rw [queuedIn, hnone]
  rfl

theorem LedgerInvariant.enqueue {L : Ledger} (h : LedgerInvariant L)
    {call jobCount maxWorkers threadBudget hostBudget : Nat} {slots : List Slot}
    (hstage : L.stages call = .fresh) (hpositive : 0 < L.pool)
    (hworkers : 0 < maxWorkers) (hthreads : maxWorkers ≤ threadBudget)
    (hhost : threadBudget ≤ hostBudget) (hlimit : hostBudget < hostLimit)
    (hslots : ∀ slot ∈ slots, slot.batch = call ∧ 0 < slot.threads ∧ slot.threads ≤ threadBudget)
    (hindexes : slots.map Slot.index = List.range jobCount) :
    LedgerInvariant { L with
      stages := Function.update L.stages call .waiting
      requested := Function.update L.requested call jobCount
      accounts := Function.update L.accounts call
        (Account.open jobCount maxWorkers threadBudget hostBudget)
      batches := L.batches ++ [call]
      queue := L.queue ++ slots } := by
  have hfresh := h.stages call
  simp only [hstage, StageInvariant] at hfresh
  obtain ⟨hjobs, hdiscarded, hunlisted⟩ := hfresh
  obtain ⟨hqueued, htaken, -, hsettled⟩ := h.places_eq_zero hjobs
  have hown : queuedIn slots call = Multiset.range jobCount := by
    rw [queuedIn_of_batch fun slot hslot => (hslots slot hslot).1, hindexes]
    rfl
  have hother : ∀ batch, batch ≠ call → queuedIn slots batch = 0 := fun batch hne =>
    queuedIn_of_other fun slot hslot => by
      rw [(hslots slot hslot).1]
      exact hne.symm
  have hzero := h.sum_eq_zero hjobs
  exact
    { h with
      places := by
        apply update_cases (P := fun batch (account : Account) => queuedIn (L.queue ++ slots) batch +
          takenIn L.pool L.footprints batch + (L.discarded batch : Multiset Nat) +
          settledIn L.settled batch = Multiset.range account.jobCount)
        · rw [queuedIn_append, hown, hqueued, htaken, hdiscarded, hsettled]
          simp [Account.open]
        · intro batch hne
          rw [queuedIn_append, hother batch hne, add_zero]
          exact h.places batch
      completed := by
        apply update_cases (P := fun batch (account : Account) => account.completed =
          Multiset.card (settledIn L.settled batch))
        · rw [hsettled]
          rfl
        · exact fun batch _ => h.completed batch
      stages := by
        intro other
        by_cases hne : other = call
        · subst hne
          show StageInvariant _ _ _ (Function.update L.stages other .waiting other)
          rw [Function.update_self]
          exact hdiscarded
        · show StageInvariant (Function.update L.accounts call _ other) _ _
            (Function.update L.stages call .waiting other)
          rw [Function.update_of_ne hne, Function.update_of_ne hne]
          exact (h.stages other).mono fun hmem => by simpa [hne] using hmem
      requested := by
        intro other
        by_cases hne : other = call
        · subst hne
          refine .inr ?_
          show (Function.update L.accounts other _ other).jobCount =
            Function.update L.requested other jobCount other
          rw [Function.update_self, Function.update_self]
          rfl
        · show (Function.update L.accounts call _ other).jobCount = 0 ∨
            (Function.update L.accounts call _ other).jobCount =
              Function.update L.requested call jobCount other
          rw [Function.update_of_ne hne, Function.update_of_ne hne]
          exact h.requested other
      remaining := by
        apply update_cases (P := fun batch (account : Account) => account.remaining =
          ((L.queue ++ slots).countP fun slot => slot.batch == batch) +
            ∑ worker ∈ Finset.range L.pool, Footprint.remainingIn batch (L.footprints worker))
        · rw [hzero (Footprint.remainingIn call) rfl (by simp +contextual [Footprint.remainingIn]),
            countP_eq_card_queuedIn, queuedIn_append, hqueued, hown]
          simp [Account.open]
        · intro batch hne
          rw [countP_eq_card_queuedIn, queuedIn_append, hother batch hne, add_zero,
            ← countP_eq_card_queuedIn]
          exact h.remaining batch
      activeThreads := by
        apply update_cases (P := fun batch (account : Account) => account.activeThreads =
          ∑ worker ∈ Finset.range L.pool, Footprint.threadsOf batch (L.footprints worker))
        · rw [hzero (Footprint.threadsOf call) rfl (by simp +contextual [Footprint.threadsOf])]
          rfl
        · exact fun batch _ => h.activeThreads batch
      activeWorkers := by
        apply update_cases (P := fun batch (account : Account) => account.activeWorkers =
          ∑ worker ∈ Finset.range L.pool, Footprint.activeIn batch (L.footprints worker))
        · rw [hzero (Footprint.activeIn call) rfl (by simp +contextual [Footprint.activeIn])]
          rfl
        · exact fun batch _ => h.activeWorkers batch
      within := by
        apply update_cases (P := fun _ (account : Account) => account.activeWorkers ≤ account.maxWorkers ∧
          account.activeThreads ≤ account.threadBudget)
        · exact ⟨Nat.zero_le _, Nat.zero_le _⟩
        · exact fun batch _ => h.within batch
      budgets := by
        apply update_cases (P := fun _ (account : Account) => 0 < account.jobCount → 0 < account.maxWorkers ∧
          account.maxWorkers ≤ account.threadBudget ∧ account.threadBudget ≤ account.hostBudget ∧
            account.hostBudget < hostLimit)
        · exact fun _ => ⟨hworkers, hthreads, hhost, hlimit⟩
        · exact fun batch _ => h.budgets batch
      shares := by
        intro slot hslot
        rcases List.mem_append.mp hslot with hslot | hslot
        · have hne : slot.batch ≠ call := by
            intro heq
            have hpos := h.jobCount_of_queued hslot
            rw [heq, hjobs] at hpos
            cases hpos
          show _ ∧ _ ≤ (Function.update L.accounts call _ slot.batch).threadBudget
          rw [Function.update_of_ne hne]
          exact h.shares slot hslot
        · obtain ⟨rfl, hpos, hle⟩ := hslots slot hslot
          show _ ∧ _ ≤ (Function.update L.accounts slot.batch _ slot.batch).threadBudget
          rw [Function.update_self]
          exact ⟨hpos, hle⟩
      listed := by
        apply update_cases (P := fun batch (account : Account) => account.remaining ≠ 0 → batch ∈ L.batches ++ [call])
        · simp
        · intro batch _ hbatch
          exact List.mem_append_left _ (h.listed batch hbatch)
      nodup := by
        rw [List.nodup_append]
        refine ⟨h.nodup, List.nodup_singleton _, ?_⟩
        intro batch hbatch other hmem heq
        rw [List.mem_singleton.mp hmem] at heq
        exact hunlisted (heq ▸ hbatch)
      pool := fun _ => hpositive }

theorem queuedIn_cons (slot : Slot) (queue : List Slot) (reserved released : Bool) (batch : Nat) :
    queuedIn (slot :: queue) batch =
      Footprint.indexIn batch (some ⟨slot, reserved, released⟩) + queuedIn queue batch := by
  by_cases hbatch : slot.batch = batch
  · simp [queuedIn, Footprint.indexIn, hbatch, ← Multiset.cons_coe]
  · simp [queuedIn, Footprint.indexIn, hbatch]

/-- Taking a job out of the queue. -/
theorem queuedIn_middle (before after : List Slot) (slot : Slot) (reserved released : Bool)
    (batch : Nat) : queuedIn (before ++ slot :: after) batch =
      Footprint.indexIn batch (some ⟨slot, reserved, released⟩) +
        queuedIn (before ++ after) batch := by
  rw [queuedIn_append, queuedIn_append, queuedIn_cons slot after reserved released]
  abel

theorem countP_middle (before after : List Slot) (slot : Slot) (reserved : Bool) (batch : Nat) :
    ((before ++ slot :: after).countP fun other => other.batch == batch) =
      Footprint.remainingIn batch (some ⟨slot, reserved, false⟩) +
        ((before ++ after).countP fun other => other.batch == batch) := by
  simp only [List.countP_append, List.countP_cons, Footprint.remainingIn, beq_iff_eq, and_true]
  omega

theorem LedgerInvariant.take {L : Ledger} (h : LedgerInvariant L) {worker : Nat} {slot : Slot}
    {reserved : Bool} {before after : List Slot} {account : Account} (hworker : worker < L.pool)
    (hfree : L.footprints worker = none) (hqueue : L.queue = before ++ slot :: after)
    (haccount : account = L.accounts slot.batch)
    (hactive : reserved = true → account.activeWorkers < account.maxWorkers)
    (hthreads : reserved = true → account.activeThreads + slot.threads ≤ account.threadBudget) :
    LedgerInvariant { L with
      footprints := Function.update L.footprints worker (some ⟨slot, reserved, false⟩)
      accounts := Function.update L.accounts slot.batch
        { account with
          activeWorkers := account.activeWorkers + if reserved then 1 else 0
          activeThreads := account.activeThreads + if reserved then slot.threads else 0 }
      queue := before ++ after
      activeThreads := L.activeThreads + if reserved then slot.threads else 0 } := by
  subst haccount
  have hsplit : ∀ {M : Type} [AddCommMonoid M] (share : Option Footprint → M), share none = 0 →
      ∑ i ∈ Finset.range L.pool, share (Function.update L.footprints worker
        (some ⟨slot, reserved, false⟩) i) = share (some ⟨slot, reserved, false⟩) +
          ∑ i ∈ Finset.range L.pool, share (L.footprints i) := by
    intro M _ share hnone
    obtain ⟨rest, hbefore, hafter⟩ :=
      share_split hworker hfree share (some ⟨slot, reserved, false⟩)
    rw [hnone, zero_add] at hbefore
    rw [hbefore, hafter]
  have hkeep : ∀ {β : Type} (view : Account → β),
      (∀ workers threads : Nat, view { L.accounts slot.batch with
        activeWorkers := workers, activeThreads := threads } = view (L.accounts slot.batch)) →
      ∀ batch, view (Function.update L.accounts slot.batch
        { L.accounts slot.batch with
          activeWorkers := (L.accounts slot.batch).activeWorkers + if reserved then 1 else 0
          activeThreads := (L.accounts slot.batch).activeThreads +
            if reserved then slot.threads else 0 } batch) = view (L.accounts batch) :=
    fun view hview batch => view_update_apply view L.accounts (hview _ _) batch
  exact
    { h with
      places := by
        intro batch
        have hindex : takenIn L.pool (Function.update L.footprints worker
            (some ⟨slot, reserved, false⟩)) batch = _ := hsplit (Footprint.indexIn batch) rfl
        have hplaces := h.places batch
        rw [hqueue, queuedIn_middle before after slot reserved false] at hplaces
        show queuedIn (before ++ after) batch + takenIn L.pool _ batch + _ + _ = Multiset.range
          (Function.update L.accounts slot.batch _ batch).jobCount
        rw [hkeep Account.jobCount (fun _ _ => rfl) batch, ← hplaces, hindex, takenIn]
        abel
      completed := fun batch =>
        (hkeep Account.completed (fun _ _ => rfl) batch).trans (h.completed batch)
      stages := by
        intro call
        have hview := hkeep (fun account => StageInvariant account (L.discarded call)
          (call ∈ L.batches) (L.stages call)) (fun _ _ => by cases L.stages call <;> rfl) call
        exact hview.mpr (h.stages call)
      remaining := by
        intro batch
        have hremaining := h.remaining batch
        rw [hqueue, countP_middle before after slot reserved] at hremaining
        refine (hkeep Account.remaining (fun _ _ => rfl) batch).trans ?_
        show _ = ((before ++ after).countP fun other => other.batch == batch) +
          ∑ i ∈ Finset.range L.pool, Footprint.remainingIn batch
            (Function.update L.footprints worker _ i)
        rw [hsplit (Footprint.remainingIn batch) rfl, hremaining]
        omega
      active := by
        show L.activeThreads + _ = ∑ i ∈ Finset.range L.pool, Footprint.threads
          (Function.update L.footprints worker _ i)
        rw [hsplit Footprint.threads rfl, h.active]
        simp only [Footprint.threads, Bool.not_false, Bool.and_true]
        exact Nat.add_comm _ _
      activeThreads := by
        apply update_cases (P := fun batch (account : Account) => account.activeThreads =
          ∑ i ∈ Finset.range L.pool, Footprint.threadsOf batch
            (Function.update L.footprints worker (some ⟨slot, reserved, false⟩) i))
        · rw [hsplit (Footprint.threadsOf slot.batch) rfl, ← h.activeThreads]
          simp [Footprint.threadsOf, Footprint.threads, Nat.add_comm]
        · intro batch hne
          rw [hsplit (Footprint.threadsOf batch) rfl, ← h.activeThreads]
          simp [Footprint.threadsOf, hne.symm]
      activeWorkers := by
        apply update_cases (P := fun batch (account : Account) => account.activeWorkers =
          ∑ i ∈ Finset.range L.pool, Footprint.activeIn batch
            (Function.update L.footprints worker (some ⟨slot, reserved, false⟩) i))
        · rw [hsplit (Footprint.activeIn slot.batch) rfl, ← h.activeWorkers]
          simp [Footprint.activeIn, Nat.add_comm]
        · intro batch hne
          rw [hsplit (Footprint.activeIn batch) rfl, ← h.activeWorkers]
          simp [Footprint.activeIn, hne.symm]
      within := by
        apply update_cases (P := fun _ (account : Account) =>
          account.activeWorkers ≤ account.maxWorkers ∧
            account.activeThreads ≤ account.threadBudget)
        · obtain ⟨hworkers, hbudget⟩ := h.within slot.batch
          cases reserved with
          | true => exact ⟨hactive rfl, hthreads rfl⟩
          | false => exact ⟨hworkers, hbudget⟩
        · exact fun batch _ => h.within batch
      requested := fun call => (hkeep (fun account => account.jobCount = 0 ∨
        account.jobCount = L.requested call) (fun _ _ => rfl) call).mpr (h.requested call)
      budgets := by
        intro batch
        have hview := hkeep (fun account => 0 < account.jobCount → 0 < account.maxWorkers ∧
          account.maxWorkers ≤ account.threadBudget ∧ account.threadBudget ≤ account.hostBudget ∧
            account.hostBudget < hostLimit) (fun _ _ => rfl) batch
        exact hview.mpr (h.budgets batch)
      shares := by
        intro other hother
        have hmem : other ∈ L.queue := by
          rw [hqueue]
          rcases List.mem_append.mp hother with hother | hother <;> simp [hother]
        have hview := hkeep Account.threadBudget (fun _ _ => rfl) other.batch
        refine ⟨(h.shares other hmem).1, ?_⟩
        rw [hview]
        exact (h.shares other hmem).2
      listed := by
        intro batch hbatch
        rw [hkeep Account.remaining (fun _ _ => rfl) batch] at hbatch
        exact h.listed batch hbatch
      pool := fun _ => Nat.lt_of_le_of_lt (Nat.zero_le _) hworker
      outside := by
        apply update_cases (P := fun i footprint => L.pool ≤ i → footprint = none)
        · intro hge
          omega
        · exact fun i _ => h.outside i }

theorem LedgerInvariant.release {L : Ledger} (h : LedgerInvariant L) {worker : Nat} {slot : Slot}
    {reserved : Bool} {account : Account}
    (hheld : L.footprints worker = some ⟨slot, reserved, false⟩)
    (haccount : account = L.accounts slot.batch) :
    LedgerInvariant { L with
      footprints := Function.update L.footprints worker (some ⟨slot, reserved, true⟩)
      accounts := Function.update L.accounts slot.batch
        { account with
          activeWorkers := account.activeWorkers - if reserved then 1 else 0
          activeThreads := account.activeThreads - if reserved then slot.threads else 0
          remaining := account.remaining - 1 }
      activeThreads := L.activeThreads - if reserved then slot.threads else 0 } := by
  subst haccount
  have hworker := h.worker_lt hheld
  have hsplit := fun share : Option Footprint → Nat =>
    share_split hworker hheld share (some ⟨slot, reserved, true⟩)
  have hkeep : ∀ {β : Type} (view : Account → β),
      (∀ workers threads remaining : Nat, view { L.accounts slot.batch with
        activeWorkers := workers, activeThreads := threads, remaining := remaining } =
          view (L.accounts slot.batch)) →
      ∀ batch, view (Function.update L.accounts slot.batch
        { L.accounts slot.batch with
          activeWorkers := (L.accounts slot.batch).activeWorkers - if reserved then 1 else 0
          activeThreads := (L.accounts slot.batch).activeThreads -
            if reserved then slot.threads else 0
          remaining := (L.accounts slot.batch).remaining - 1 } batch) = view (L.accounts batch) :=
    fun view hview batch => view_update_apply view L.accounts (hview _ _ _) batch
  exact
    { h with
      places := by
        intro batch
        have hindex : takenIn L.pool (Function.update L.footprints worker
            (some ⟨slot, reserved, true⟩)) batch = takenIn L.pool L.footprints batch :=
          share_eq hworker (Footprint.indexIn batch) (by rw [hheld]; rfl)
        show _ + takenIn L.pool _ batch + _ + _ = Multiset.range
          (Function.update L.accounts slot.batch _ batch).jobCount
        rw [hkeep Account.jobCount (fun _ _ _ => rfl) batch, hindex]
        exact h.places batch
      completed := fun batch =>
        (hkeep Account.completed (fun _ _ _ => rfl) batch).trans (h.completed batch)
      stages := by
        intro call
        have hview := hkeep (fun account => StageInvariant account (L.discarded call)
          (call ∈ L.batches) (L.stages call)) (fun _ _ _ => by cases L.stages call <;> rfl) call
        exact hview.mpr (h.stages call)
      remaining := by
        apply update_cases (P := fun batch (account : Account) => account.remaining =
          (L.queue.countP fun other => other.batch == batch) + ∑ i ∈ Finset.range L.pool,
            Footprint.remainingIn batch
              (Function.update L.footprints worker (some ⟨slot, reserved, true⟩) i))
        · obtain ⟨rest, hbefore, hafter⟩ := hsplit (Footprint.remainingIn slot.batch)
          have hremaining := h.remaining slot.batch
          rw [hbefore] at hremaining
          rw [hafter]
          simp only [Footprint.remainingIn, and_self, if_true, Bool.true_eq_false, and_false,
            if_false] at hremaining ⊢
          omega
        · intro batch hne
          obtain ⟨rest, hbefore, hafter⟩ := hsplit (Footprint.remainingIn batch)
          rw [h.remaining batch, hbefore, hafter]
          simp [Footprint.remainingIn, hne.symm]
      active := by
        obtain ⟨rest, hbefore, hafter⟩ := hsplit Footprint.threads
        refine Eq.trans ?_ hafter.symm
        show L.activeThreads - _ = _
        rw [h.active, hbefore]
        cases reserved <;> simp [Footprint.threads]
      activeThreads := by
        apply update_cases (P := fun batch (account : Account) => account.activeThreads =
          ∑ i ∈ Finset.range L.pool, Footprint.threadsOf batch
            (Function.update L.footprints worker (some ⟨slot, reserved, true⟩) i))
        · obtain ⟨rest, hbefore, hafter⟩ := hsplit (Footprint.threadsOf slot.batch)
          rw [hafter, h.activeThreads, hbefore]
          cases reserved <;> simp [Footprint.threadsOf, Footprint.threads]
        · intro batch hne
          obtain ⟨rest, hbefore, hafter⟩ := hsplit (Footprint.threadsOf batch)
          rw [h.activeThreads batch, hbefore, hafter]
          simp [Footprint.threadsOf, hne.symm]
      activeWorkers := by
        apply update_cases (P := fun batch (account : Account) => account.activeWorkers =
          ∑ i ∈ Finset.range L.pool, Footprint.activeIn batch
            (Function.update L.footprints worker (some ⟨slot, reserved, true⟩) i))
        · obtain ⟨rest, hbefore, hafter⟩ := hsplit (Footprint.activeIn slot.batch)
          rw [hafter, h.activeWorkers, hbefore]
          cases reserved <;> simp [Footprint.activeIn]
        · intro batch hne
          obtain ⟨rest, hbefore, hafter⟩ := hsplit (Footprint.activeIn batch)
          rw [h.activeWorkers batch, hbefore, hafter]
          simp [Footprint.activeIn, hne.symm]
      within := by
        apply update_cases (P := fun _ (account : Account) =>
          account.activeWorkers ≤ account.maxWorkers ∧
            account.activeThreads ≤ account.threadBudget)
        · obtain ⟨hworkers, hbudget⟩ := h.within slot.batch
          exact ⟨Nat.le_trans (Nat.sub_le _ _) hworkers, Nat.le_trans (Nat.sub_le _ _) hbudget⟩
        · exact fun batch _ => h.within batch
      requested := fun call => (hkeep (fun account => account.jobCount = 0 ∨
        account.jobCount = L.requested call) (fun _ _ _ => rfl) call).mpr (h.requested call)
      budgets := by
        intro batch
        have hview := hkeep (fun account => 0 < account.jobCount → 0 < account.maxWorkers ∧
          account.maxWorkers ≤ account.threadBudget ∧ account.threadBudget ≤ account.hostBudget ∧
            account.hostBudget < hostLimit) (fun _ _ _ => rfl) batch
        exact hview.mpr (h.budgets batch)
      shares := by
        intro other hother
        have hview := hkeep Account.threadBudget (fun _ _ _ => rfl) other.batch
        refine ⟨(h.shares other hother).1, ?_⟩
        rw [hview]
        exact (h.shares other hother).2
      listed := by
        apply update_cases (P := fun batch (account : Account) => account.remaining ≠ 0 →
          batch ∈ L.batches)
        · intro hne
          apply h.listed
          simp only at hne
          omega
        · exact fun batch _ => h.listed batch
      outside := by
        apply update_cases (P := fun i footprint => L.pool ≤ i → footprint = none)
        · intro hge
          omega
        · exact fun i _ => h.outside i }

/-- Once all jobs of a batch are counted, none is anywhere else. -/
theorem LedgerInvariant.places_of_completed {L : Ledger} (h : LedgerInvariant L) {batch : Nat}
    (hcompleted : (L.accounts batch).completed = (L.accounts batch).jobCount) :
    queuedIn L.queue batch = 0 ∧ takenIn L.pool L.footprints batch = 0 ∧
      (L.discarded batch : Multiset Nat) = 0 := by
  have hcard := congrArg Multiset.card (h.places batch)
  rw [h.completed batch] at hcompleted
  simp only [Multiset.card_add, Multiset.card_range, hcompleted] at hcard
  refine ⟨?_, ?_, ?_⟩ <;> apply Multiset.card_eq_zero.mp <;> omega

/-- A taken job is in its place. -/
theorem LedgerInvariant.mem_takenIn {L : Ledger} (h : LedgerInvariant L) {worker : Nat}
    {footprint : Footprint} (hheld : L.footprints worker = some footprint) :
    footprint.slot.index ∈ takenIn L.pool L.footprints footprint.slot.batch := by
  apply Multiset.mem_sum.mpr
  refine ⟨worker, Finset.mem_range.mpr (h.worker_lt hheld), ?_⟩
  simp [hheld, Footprint.indexIn]

/-- A batch whose call has left has no job in the hands of a worker. -/
theorem LedgerInvariant.not_left_of_held {L : Ledger} (h : LedgerInvariant L) {worker : Nat}
    {footprint : Footprint} (hheld : L.footprints worker = some footprint) :
    (L.accounts footprint.slot.batch).completed ≠ (L.accounts footprint.slot.batch).jobCount := by
  intro hcompleted
  have htaken := (h.places_of_completed hcompleted).2.1
  have hmem := h.mem_takenIn hheld
  rw [htaken] at hmem
  exact absurd hmem (Multiset.notMem_zero _)

theorem settledIn_append (settled settled' : List (Nat × Nat)) (batch : Nat) :
    settledIn (settled ++ settled') batch = settledIn settled batch + settledIn settled' batch := by
  simp [settledIn]

theorem settledIn_singleton (slot : Slot) (reserved released : Bool) (batch : Nat) :
    settledIn [(slot.batch, slot.index)] batch =
      Footprint.indexIn batch (some ⟨slot, reserved, released⟩) := by
  by_cases hbatch : slot.batch = batch
  · simp [settledIn, Footprint.indexIn, hbatch]
  · simp [settledIn, Footprint.indexIn, hbatch]

theorem settledIn_map (indexes : List Nat) (call batch : Nat) :
    settledIn (indexes.map fun index => (call, index)) batch =
      if call = batch then (indexes : Multiset Nat) else 0 := by
  by_cases hcall : call = batch
  · simp [settledIn, hcall, List.filter_map, Function.comp_def]
  · simp [settledIn, hcall, List.filter_map, Function.comp_def]

theorem LedgerInvariant.count {L : Ledger} (h : LedgerInvariant L) {worker : Nat} {slot : Slot}
    {reserved : Bool} {account : Account}
    (hheld : L.footprints worker = some ⟨slot, reserved, true⟩)
    (haccount : account = L.accounts slot.batch) :
    LedgerInvariant { L with
      footprints := Function.update L.footprints worker none
      accounts := Function.update L.accounts slot.batch
        { account with completed := account.completed + 1 }
      settled := L.settled ++ [(slot.batch, slot.index)] } := by
  subst haccount
  have hworker := h.worker_lt hheld
  have hnotLeft := h.not_left_of_held hheld
  have hsame : ∀ (share : Option Footprint → Nat), share none = 0 →
      share (some ⟨slot, reserved, true⟩) = 0 →
      ∑ i ∈ Finset.range L.pool, share (Function.update L.footprints worker none i) =
        ∑ i ∈ Finset.range L.pool, share (L.footprints i) := by
    intro share hnone hreleased
    apply share_eq hworker
    rw [hheld, hnone, hreleased]
  have hkeep : ∀ {β : Type} (view : Account → β),
      (∀ completed : Nat, view { L.accounts slot.batch with completed := completed } =
        view (L.accounts slot.batch)) →
      ∀ batch, view (Function.update L.accounts slot.batch
        { L.accounts slot.batch with completed := (L.accounts slot.batch).completed + 1 } batch) =
          view (L.accounts batch) :=
    fun view hview batch => view_update_apply view L.accounts (hview _) batch
  exact
    { h with
      places := by
        intro batch
        obtain ⟨rest, hbefore, hafter⟩ := share_split hworker hheld (Footprint.indexIn batch) none
        have hplaces := h.places batch
        rw [takenIn, hbefore] at hplaces
        show _ + ∑ i ∈ Finset.range L.pool, Footprint.indexIn batch
            (Function.update L.footprints worker none i) + _ +
            settledIn (L.settled ++ [(slot.batch, slot.index)]) batch =
          Multiset.range (Function.update L.accounts slot.batch _ batch).jobCount
        rw [hkeep Account.jobCount (fun _ => rfl) batch, ← hplaces, hafter, settledIn_append,
          settledIn_singleton slot reserved true]
        simp only [Footprint.indexIn]
        abel
      completed := by
        apply update_cases (P := fun batch (account : Account) => account.completed =
          Multiset.card (settledIn (L.settled ++ [(slot.batch, slot.index)]) batch))
        · rw [settledIn_append, settledIn_singleton slot reserved true, Multiset.card_add,
            ← h.completed]
          simp [Footprint.indexIn]
        · intro batch hne
          rw [settledIn_append, settledIn_singleton slot reserved true, Multiset.card_add,
            ← h.completed]
          simp [Footprint.indexIn, hne.symm]
      stages := by
        apply update_cases (P := fun call (account : Account) => StageInvariant account
          (L.discarded call) (call ∈ L.batches) (L.stages call))
        · have hstage := h.stages slot.batch
          cases hcase : L.stages slot.batch with
          | left =>
              rw [hcase] at hstage
              exact absurd hstage.2 hnotLeft
          | fresh =>
              rw [hcase] at hstage
              exact hstage
          | waiting =>
              rw [hcase] at hstage
              exact hstage
          | adding dropped =>
              rw [hcase] at hstage
              exact hstage
        · exact fun call _ => h.stages call
      remaining := by
        intro batch
        refine (hkeep Account.remaining (fun _ => rfl) batch).trans ((h.remaining batch).trans ?_)
        exact congrArg _ (hsame (Footprint.remainingIn batch) rfl
          (by simp [Footprint.remainingIn])).symm
      active := h.active.trans (hsame Footprint.threads rfl (by simp [Footprint.threads])).symm
      activeThreads := fun batch =>
        (hkeep Account.activeThreads (fun _ => rfl) batch).trans ((h.activeThreads batch).trans
          (hsame (Footprint.threadsOf batch) rfl
            (by simp [Footprint.threadsOf, Footprint.threads])).symm)
      activeWorkers := fun batch =>
        (hkeep Account.activeWorkers (fun _ => rfl) batch).trans ((h.activeWorkers batch).trans
          (hsame (Footprint.activeIn batch) rfl (by simp [Footprint.activeIn])).symm)
      within := fun batch => (hkeep (fun account => account.activeWorkers ≤ account.maxWorkers ∧
        account.activeThreads ≤ account.threadBudget) (fun _ => rfl) batch).mpr (h.within batch)
      requested := fun call => (hkeep (fun account => account.jobCount = 0 ∨
        account.jobCount = L.requested call) (fun _ => rfl) call).mpr (h.requested call)
      budgets := fun batch => (hkeep (fun account => 0 < account.jobCount →
        0 < account.maxWorkers ∧ account.maxWorkers ≤ account.threadBudget ∧
          account.threadBudget ≤ account.hostBudget ∧ account.hostBudget < hostLimit)
        (fun _ => rfl) batch).mpr (h.budgets batch)
      shares := fun other hother => (hkeep (fun account => 0 < other.threads ∧
        other.threads ≤ account.threadBudget) (fun _ => rfl) other.batch).mpr (h.shares other hother)
      listed := fun batch => (hkeep (fun account => account.remaining ≠ 0 → batch ∈ L.batches)
        (fun _ => rfl) batch).mpr (h.listed batch)
      outside := by
        apply update_cases (P := fun i footprint => L.pool ≤ i → footprint = none)
        · exact fun _ => rfl
        · exact fun i _ => h.outside i }

/-- Dropping the queued jobs of one batch. -/
theorem queuedIn_filter (queue : List Slot) (call batch : Nat) :
    queuedIn (queue.filter fun slot => slot.batch != call) batch =
      if batch = call then 0 else queuedIn queue batch := by
  by_cases hbatch : batch = call
  · subst hbatch
    rw [if_pos rfl]
    apply queuedIn_of_other
    intro slot hslot
    simpa using (List.mem_filter.mp hslot).2
  · rw [if_neg hbatch]
    have hfilter : ((queue.filter fun slot => slot.batch != call).filter fun slot =>
        slot.batch == batch) = queue.filter fun slot => slot.batch == batch := by
      rw [List.filter_filter]
      apply List.filter_congr
      intro slot _
      by_cases hslot : slot.batch = batch
      · simp [hslot, hbatch]
      · simp [hslot]
    simp only [queuedIn, hfilter]

theorem LedgerInvariant.discard {L : Ledger} (h : LedgerInvariant L) {call : Nat}
    {account : Account} (hstage : L.stages call = .waiting)
    (haccount : account = L.accounts call) :
    LedgerInvariant { L with
      stages := Function.update L.stages call
        (.adding (L.queue.filter fun slot => slot.batch == call).length)
      accounts := Function.update L.accounts call
        { account with
          remaining := account.remaining - L.queue.countP fun slot => slot.batch == call }
      queue := L.queue.filter fun slot => slot.batch != call
      discarded := Function.update L.discarded call
        ((L.queue.filter fun slot => slot.batch == call).map Slot.index) } := by
  subst haccount
  have hdiscarded : L.discarded call = [] := by
    have hcall := h.stages call
    rwa [hstage] at hcall
  have hkeep : ∀ {β : Type} (view : Account → β),
      (∀ remaining : Nat, view { L.accounts call with remaining := remaining } =
        view (L.accounts call)) →
      ∀ batch, view (Function.update L.accounts call { L.accounts call with
        remaining := (L.accounts call).remaining -
          L.queue.countP fun slot => slot.batch == call } batch) = view (L.accounts batch) :=
    fun view hview batch => view_update_apply view L.accounts (hview _) batch
  exact
    { h with
      places := by
        intro batch
        have hplaces := h.places batch
        show queuedIn (L.queue.filter fun slot => slot.batch != call) batch + _ +
            (Function.update L.discarded call _ batch : Multiset Nat) + _ =
          Multiset.range (Function.update L.accounts call _ batch).jobCount
        rw [hkeep Account.jobCount (fun _ => rfl) batch, ← hplaces, queuedIn_filter]
        by_cases hbatch : batch = call
        · subst hbatch
          rw [if_pos rfl, Function.update_self, hdiscarded, queuedIn]
          simp only [zero_add, Multiset.coe_nil, add_zero]
          abel
        · rw [if_neg hbatch, Function.update_of_ne hbatch]
      completed := fun batch =>
        (hkeep Account.completed (fun _ => rfl) batch).trans (h.completed batch)
      stages := by
        intro other
        show StageInvariant (Function.update L.accounts call _ other)
          (Function.update L.discarded call _ other) (other ∈ L.batches)
          (Function.update L.stages call _ other)
        by_cases hother : other = call
        · subst hother
          rw [Function.update_self, Function.update_self, Function.update_self]
          exact List.length_map ..
        · rw [Function.update_of_ne hother, Function.update_of_ne hother,
            Function.update_of_ne hother]
          exact h.stages other
      remaining := by
        apply update_cases (P := fun batch (account : Account) => account.remaining =
          ((L.queue.filter fun slot => slot.batch != call).countP fun slot =>
            slot.batch == batch) + ∑ worker ∈ Finset.range L.pool,
              Footprint.remainingIn batch (L.footprints worker))
        · have hremaining := h.remaining call
          have hnone : ((L.queue.filter fun slot => slot.batch != call).countP fun slot =>
              slot.batch == call) = 0 := by
            rw [countP_eq_card_queuedIn, queuedIn_filter, if_pos rfl, Multiset.card_zero]
          rw [hnone, zero_add]
          show (L.accounts call).remaining - _ = _
          omega
        · intro batch hne
          rw [countP_eq_card_queuedIn, queuedIn_filter, if_neg hne, ← countP_eq_card_queuedIn]
          exact h.remaining batch
      activeThreads := fun batch =>
        (hkeep Account.activeThreads (fun _ => rfl) batch).trans (h.activeThreads batch)
      activeWorkers := fun batch =>
        (hkeep Account.activeWorkers (fun _ => rfl) batch).trans (h.activeWorkers batch)
      within := fun batch => (hkeep (fun account => account.activeWorkers ≤ account.maxWorkers ∧
        account.activeThreads ≤ account.threadBudget) (fun _ => rfl) batch).mpr (h.within batch)
      requested := fun other => (hkeep (fun account => account.jobCount = 0 ∨
        account.jobCount = L.requested other) (fun _ => rfl) other).mpr (h.requested other)
      budgets := fun batch => (hkeep (fun account => 0 < account.jobCount →
        0 < account.maxWorkers ∧ account.maxWorkers ≤ account.threadBudget ∧
          account.threadBudget ≤ account.hostBudget ∧ account.hostBudget < hostLimit)
        (fun _ => rfl) batch).mpr (h.budgets batch)
      shares := fun slot hslot => (hkeep (fun account => 0 < slot.threads ∧
        slot.threads ≤ account.threadBudget) (fun _ => rfl) slot.batch).mpr
          (h.shares slot (List.mem_of_mem_filter hslot))
      listed := by
        apply update_cases (P := fun batch (account : Account) => account.remaining ≠ 0 →
          batch ∈ L.batches)
        · intro hne
          apply h.listed
          simp only at hne
          omega
        · exact fun batch _ => h.listed batch
      pool := by
        intro hne
        apply h.pool
        intro hnil
        apply hne
        show L.queue.filter _ = []
        rw [hnil]
        rfl }

theorem LedgerInvariant.add {L : Ledger} (h : LedgerInvariant L) {call dropped : Nat}
    {account : Account} (hstage : L.stages call = .adding dropped)
    (haccount : account = L.accounts call) :
    LedgerInvariant { L with
      stages := Function.update L.stages call .waiting
      accounts := Function.update L.accounts call
        { account with completed := account.completed + dropped }
      discarded := Function.update L.discarded call []
      settled := L.settled ++ (L.discarded call).map fun index => (call, index) } := by
  subst haccount
  have hlength : (L.discarded call).length = dropped := by
    have hcall := h.stages call
    rwa [hstage] at hcall
  have hkeep : ∀ {β : Type} (view : Account → β),
      (∀ completed : Nat, view { L.accounts call with completed := completed } =
        view (L.accounts call)) →
      ∀ batch, view (Function.update L.accounts call
        { L.accounts call with completed := (L.accounts call).completed + dropped } batch) =
          view (L.accounts batch) :=
    fun view hview batch => view_update_apply view L.accounts (hview _) batch
  exact
    { h with
      places := by
        intro batch
        have hplaces := h.places batch
        show _ + _ + (Function.update L.discarded call [] batch : Multiset Nat) +
            settledIn (L.settled ++ (L.discarded call).map fun index => (call, index)) batch =
          Multiset.range (Function.update L.accounts call _ batch).jobCount
        rw [hkeep Account.jobCount (fun _ => rfl) batch, ← hplaces, settledIn_append, settledIn_map]
        by_cases hbatch : batch = call
        · subst hbatch
          rw [if_pos rfl, Function.update_self]
          simp only [Multiset.coe_nil, add_zero]
          abel
        · rw [if_neg (Ne.symm hbatch), Function.update_of_ne hbatch, add_zero]
      completed := by
        apply update_cases (P := fun batch (account : Account) => account.completed =
          Multiset.card (settledIn
            (L.settled ++ (L.discarded call).map fun index => (call, index)) batch))
        · rw [settledIn_append, settledIn_map, if_pos rfl, Multiset.card_add, ← h.completed,
            Multiset.coe_card, hlength]
        · intro batch hne
          rw [settledIn_append, settledIn_map, if_neg hne.symm, add_zero]
          exact h.completed batch
      stages := by
        intro other
        show StageInvariant (Function.update L.accounts call _ other)
          (Function.update L.discarded call _ other) (other ∈ L.batches)
          (Function.update L.stages call _ other)
        by_cases hother : other = call
        · subst hother
          rw [Function.update_self, Function.update_self, Function.update_self]
          rfl
        · rw [Function.update_of_ne hother, Function.update_of_ne hother,
            Function.update_of_ne hother]
          exact h.stages other
      remaining := fun batch =>
        (hkeep Account.remaining (fun _ => rfl) batch).trans (h.remaining batch)
      activeThreads := fun batch =>
        (hkeep Account.activeThreads (fun _ => rfl) batch).trans (h.activeThreads batch)
      activeWorkers := fun batch =>
        (hkeep Account.activeWorkers (fun _ => rfl) batch).trans (h.activeWorkers batch)
      within := fun batch => (hkeep (fun account => account.activeWorkers ≤ account.maxWorkers ∧
        account.activeThreads ≤ account.threadBudget) (fun _ => rfl) batch).mpr (h.within batch)
      requested := fun other => (hkeep (fun account => account.jobCount = 0 ∨
        account.jobCount = L.requested other) (fun _ => rfl) other).mpr (h.requested other)
      budgets := fun batch => (hkeep (fun account => 0 < account.jobCount →
        0 < account.maxWorkers ∧ account.maxWorkers ≤ account.threadBudget ∧
          account.threadBudget ≤ account.hostBudget ∧ account.hostBudget < hostLimit)
        (fun _ => rfl) batch).mpr (h.budgets batch)
      shares := fun slot hslot => (hkeep (fun account => 0 < slot.threads ∧
        slot.threads ≤ account.threadBudget) (fun _ => rfl) slot.batch).mpr (h.shares slot hslot)
      listed := fun batch => (hkeep (fun account => account.remaining ≠ 0 → batch ∈ L.batches)
        (fun _ => rfl) batch).mpr (h.listed batch) }

/-- **Every move keeps the ledger exact.** -/
theorem ledgerInvariant_move {L M : Ledger} (h : LedgerInvariant L) (hmove : LedgerMove L M) :
    LedgerInvariant M := by
  cases hmove with
  | quiet => exact h
  | reject pool requested hstage hpool => exact h.reject hstage hpool
  | enqueue slots hstage hpool hpositive hjobs hworkers hthreads hhost hlimit hslots hindexes =>
      exact (h.grow hpool).enqueue hstage hpositive hworkers hthreads hhost hlimit hslots hindexes
  | prune => exact h.prune
  | take reserved account hworker hfree hqueue haccount hactive hthreads hfits =>
      exact h.prune.take hworker hfree hqueue haccount hactive hthreads
  | release hheld haccount => exact h.release hheld haccount
  | count hheld haccount => exact h.count hheld haccount
  | discard hstage haccount => exact h.discard hstage haccount
  | add hstage haccount => exact h.add hstage haccount
  | @leave call hstage hcompleted =>
      have hcall := h.stages call
      rw [hstage] at hcall
      exact h.leave hcall hcompleted

/-- The ledger before the first call. -/
def Ledger.empty : Ledger where
  queue := []
  pool := 0
  batches := []
  activeThreads := 0
  accounts := fun _ => ⟨0, 0, 0, 0, 0, 0, 0, 0⟩
  footprints := fun _ => none
  stages := fun _ => .fresh
  requested := fun _ => 0
  discarded := fun _ => []
  settled := []

theorem ledgerInvariant_empty : LedgerInvariant Ledger.empty where
  places := fun _ => rfl
  completed := fun _ => rfl
  stages := fun _ => ⟨rfl, rfl, List.not_mem_nil⟩
  requested := fun _ => .inl rfl
  remaining := fun _ => rfl
  active := rfl
  activeThreads := fun _ => rfl
  activeWorkers := fun _ => rfl
  within := fun _ => ⟨Nat.le_refl _, Nat.le_refl _⟩
  budgets := fun _ h => absurd h (by simp [Ledger.empty])
  shares := fun _ h => absurd h List.not_mem_nil
  listed := fun _ h => absurd rfl h
  nodup := List.nodup_nil
  pool := fun h => absurd rfl h
  outside := fun _ _ => rfl

end DuckdbLerobot.Codec
