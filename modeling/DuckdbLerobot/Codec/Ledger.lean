import DuckdbLerobot.Library.Parties
import Mathlib.Algebra.Order.BigOperators.Group.Finset
import Mathlib.Data.Multiset.Range
import Mathlib.Tactic.Abel

/-!
# The ledger of a job queue

What a pool of workers with a shared queue has to keep right, without what the jobs do: which jobs
of each batch are queued, taken, discarded and counted, and which budgets the taken jobs hold.

`LedgerMove` has the kinds of changes that the executor makes. `LedgerInvariant` says that every job
of a batch is in exactly one place, that the counters are exact, and that no budget is exceeded.
-/

set_option autoImplicit false

namespace DuckdbLerobot.Codec

open DuckdbLerobot.Library

/-- A job: its batch, its place in the batch, and the threads it asks for. -/
structure Slot where
  batch : Nat
  index : Nat
  threads : Nat
  deriving DecidableEq

/-- A job in the hands of a worker. -/
structure Footprint where
  slot : Slot
  reserved : Bool
  released : Bool

/-- The counters of a batch. -/
structure Account where
  jobCount : Nat
  maxWorkers : Nat
  threadBudget : Nat
  hostBudget : Nat
  activeWorkers : Nat
  activeThreads : Nat
  remaining : Nat
  completed : Nat

/-- How far a call is. -/
inductive CallStage
  | fresh
  | waiting
  | adding (discarded : Nat)
  | left
  deriving DecidableEq

/-- The ledger. -/
structure Ledger where
  queue : List Slot
  pool : Nat
  batches : List Nat
  activeThreads : Nat
  accounts : Nat → Account
  footprints : Nat → Option Footprint
  stages : Nat → CallStage
  /-- The number of jobs that a call was given. -/
  requested : Nat → Nat
  discarded : Nat → List Nat
  settled : List (Nat × Nat)

/-! ## Shares of a worker -/

namespace Footprint

/-- The threads that a worker's job holds. -/
def threads : Option Footprint → Nat
  | some footprint =>
      if footprint.reserved && !footprint.released then footprint.slot.threads else 0
  | none => 0

/-- The threads that it holds of one batch. -/
def threadsOf (batch : Nat) : Option Footprint → Nat
  | some footprint =>
      if footprint.slot.batch = batch then threads (some footprint) else 0
  | none => 0

/-- Whether its job counts as an active worker of a batch. -/
def activeIn (batch : Nat) : Option Footprint → Nat
  | some footprint =>
      if footprint.slot.batch = batch ∧ footprint.reserved = true ∧ footprint.released = false then 1
      else 0
  | none => 0

/-- Whether its job is a remaining job of a batch. -/
def remainingIn (batch : Nat) : Option Footprint → Nat
  | some footprint =>
      if footprint.slot.batch = batch ∧ footprint.released = false then 1 else 0
  | none => 0

/-- The place of its job in a batch. -/
def indexIn (batch : Nat) : Option Footprint → Multiset Nat
  | some footprint => if footprint.slot.batch = batch then {footprint.slot.index} else 0
  | none => 0

end Footprint

/-! ## Places of a batch's jobs -/

/-- The places of the queued jobs of a batch. -/
def queuedIn (queue : List Slot) (batch : Nat) : Multiset Nat :=
  ((queue.filter fun slot => slot.batch == batch).map Slot.index : List Nat)

/-- The places of the taken jobs of a batch. -/
def takenIn (pool : Nat) (footprints : Nat → Option Footprint) (batch : Nat) : Multiset Nat :=
  ∑ worker ∈ Finset.range pool, Footprint.indexIn batch (footprints worker)

/-- The places of the counted jobs of a batch. -/
def settledIn (settled : List (Nat × Nat)) (batch : Nat) : Multiset Nat :=
  ((settled.filter fun entry => entry.1 == batch).map Prod.snd : List Nat)

/-- Whether a reservation of `threads` respects the host budget of every live batch. -/
def Ledger.Fits (L : Ledger) (threads : Nat) : Prop :=
  ∀ batch ∈ L.batches, (L.accounts batch).remaining ≠ 0 →
    L.activeThreads + threads ≤ (L.accounts batch).hostBudget

/-- The account of a new batch. -/
def Account.open (jobCount maxWorkers threadBudget hostBudget : Nat) : Account :=
  ⟨jobCount, maxWorkers, threadBudget, hostBudget, 0, 0, jobCount, 0⟩

/-- A bound on host budgets, which come from a signed integer. -/
def hostLimit : Nat := 2 ^ 63

/-- The batches with remaining jobs. -/
def Ledger.liveBatches (L : Ledger) : List Nat :=
  L.batches.filter fun batch => (L.accounts batch).remaining != 0

/-- The effect of one step on the ledger. -/
inductive LedgerMove (L : Ledger) : Ledger → Prop
  | quiet : LedgerMove L L
  /-- A call ends before it has a batch. -/
  | reject {call : Nat} (pool requested : Nat) (hstage : L.stages call = .fresh)
      (hpool : L.pool ≤ pool) :
      LedgerMove L { L with
        stages := Function.update L.stages call .left
        requested := Function.update L.requested call requested
        pool := pool }
  /-- A call queues the jobs of its batch. -/
  | enqueue {call pool jobCount maxWorkers threadBudget hostBudget : Nat} (slots : List Slot)
      (hstage : L.stages call = .fresh) (hpool : L.pool ≤ pool) (hpositive : 0 < pool)
      (hjobs : 0 < jobCount)
      (hworkers : 0 < maxWorkers) (hthreads : maxWorkers ≤ threadBudget)
      (hhost : threadBudget ≤ hostBudget) (hlimit : hostBudget < hostLimit)
      (hslots : ∀ slot ∈ slots, slot.batch = call ∧ 0 < slot.threads ∧
        slot.threads ≤ threadBudget)
      (hindexes : slots.map Slot.index = List.range jobCount) :
      LedgerMove L { L with
        stages := Function.update L.stages call .waiting
        requested := Function.update L.requested call jobCount
        accounts := Function.update L.accounts call
          (Account.open jobCount maxWorkers threadBudget hostBudget)
        pool := pool
        batches := L.batches ++ [call]
        queue := L.queue ++ slots }
  /-- Batches without remaining jobs are dropped from the list. -/
  | prune : LedgerMove L { L with batches := L.liveBatches }
  /-- A worker takes a job, and reserves its threads unless its batch is cancelled. -/
  | take {worker : Nat} {slot : Slot} {before after : List Slot} (reserved : Bool)
      (account : Account) (hworker : worker < L.pool)
      (hfree : L.footprints worker = none) (hqueue : L.queue = before ++ slot :: after)
      (haccount : account = L.accounts slot.batch)
      (hactive : reserved = true → account.activeWorkers < account.maxWorkers)
      (hthreads : reserved = true → account.activeThreads + slot.threads ≤ account.threadBudget)
      (hfits : reserved = true → L.Fits slot.threads) :
      LedgerMove L { L with
        footprints := Function.update L.footprints worker (some ⟨slot, reserved, false⟩)
        accounts := Function.update L.accounts slot.batch
          { account with
            activeWorkers := account.activeWorkers + if reserved then 1 else 0
            activeThreads := account.activeThreads + if reserved then slot.threads else 0 }
        queue := before ++ after
        batches := L.liveBatches
        activeThreads := L.activeThreads + if reserved then slot.threads else 0 }
  /-- A worker gives the threads of its job back. -/
  | release {worker : Nat} {slot : Slot} {reserved : Bool} {account : Account}
      (hheld : L.footprints worker = some ⟨slot, reserved, false⟩)
      (haccount : account = L.accounts slot.batch) :
      LedgerMove L { L with
        footprints := Function.update L.footprints worker (some ⟨slot, reserved, true⟩)
        accounts := Function.update L.accounts slot.batch
          { account with
            activeWorkers := account.activeWorkers - if reserved then 1 else 0
            activeThreads := account.activeThreads - if reserved then slot.threads else 0
            remaining := account.remaining - 1 }
        activeThreads := L.activeThreads - if reserved then slot.threads else 0 }
  /-- A worker counts its job. -/
  | count {worker : Nat} {slot : Slot} {reserved : Bool} {account : Account}
      (hheld : L.footprints worker = some ⟨slot, reserved, true⟩)
      (haccount : account = L.accounts slot.batch) :
      LedgerMove L { L with
        footprints := Function.update L.footprints worker none
        accounts := Function.update L.accounts slot.batch
          { account with completed := account.completed + 1 }
        settled := L.settled ++ [(slot.batch, slot.index)] }
  /-- A call drops the queued jobs of its batch. -/
  | discard {call : Nat} {account : Account} (hstage : L.stages call = .waiting)
      (haccount : account = L.accounts call) :
      LedgerMove L { L with
        stages := Function.update L.stages call
          (.adding (L.queue.filter fun slot => slot.batch == call).length)
        accounts := Function.update L.accounts call
          { account with
            remaining := account.remaining - L.queue.countP fun slot => slot.batch == call }
        queue := L.queue.filter fun slot => slot.batch != call
        discarded := Function.update L.discarded call
          ((L.queue.filter fun slot => slot.batch == call).map Slot.index) }
  /-- A call counts the jobs that it dropped. -/
  | add {call dropped : Nat} {account : Account} (hstage : L.stages call = .adding dropped)
      (haccount : account = L.accounts call) :
      LedgerMove L { L with
        stages := Function.update L.stages call .waiting
        accounts := Function.update L.accounts call
          { account with completed := account.completed + dropped }
        discarded := Function.update L.discarded call []
        settled := L.settled ++ (L.discarded call).map fun index => (call, index) }
  /-- A call leaves its wait loop. -/
  | leave {call : Nat} (hstage : L.stages call = .waiting)
      (hcompleted : (L.accounts call).completed = (L.accounts call).jobCount) :
      LedgerMove L { L with stages := Function.update L.stages call .left }

/-! ## The invariant -/

/-- What the stage of a call says about its batch. -/
def StageInvariant (account : Account) (discarded : List Nat) (listed : Prop) : CallStage → Prop
  | .fresh => account.jobCount = 0 ∧ discarded = [] ∧ ¬listed
  | .waiting => discarded = []
  | .adding dropped => discarded.length = dropped
  | .left => discarded = [] ∧ account.completed = account.jobCount

/-- The ledger is exact. -/
structure LedgerInvariant (L : Ledger) : Prop where
  /-- Every job of a batch is queued, taken, dropped or counted. -/
  places : ∀ batch, queuedIn L.queue batch + takenIn L.pool L.footprints batch +
    (L.discarded batch : Multiset Nat) + settledIn L.settled batch =
      Multiset.range (L.accounts batch).jobCount
  completed : ∀ batch, (L.accounts batch).completed = Multiset.card (settledIn L.settled batch)
  stages : ∀ call, StageInvariant (L.accounts call) (L.discarded call) (call ∈ L.batches)
    (L.stages call)
  requested : ∀ call, (L.accounts call).jobCount = 0 ∨
    (L.accounts call).jobCount = L.requested call
  remaining : ∀ batch, (L.accounts batch).remaining =
    (L.queue.countP fun slot => slot.batch == batch) +
      ∑ worker ∈ Finset.range L.pool, Footprint.remainingIn batch (L.footprints worker)
  active : L.activeThreads =
    ∑ worker ∈ Finset.range L.pool, Footprint.threads (L.footprints worker)
  activeThreads : ∀ batch, (L.accounts batch).activeThreads =
    ∑ worker ∈ Finset.range L.pool, Footprint.threadsOf batch (L.footprints worker)
  activeWorkers : ∀ batch, (L.accounts batch).activeWorkers =
    ∑ worker ∈ Finset.range L.pool, Footprint.activeIn batch (L.footprints worker)
  within : ∀ batch, (L.accounts batch).activeWorkers ≤ (L.accounts batch).maxWorkers ∧
    (L.accounts batch).activeThreads ≤ (L.accounts batch).threadBudget
  budgets : ∀ batch, 0 < (L.accounts batch).jobCount → 0 < (L.accounts batch).maxWorkers ∧
    (L.accounts batch).maxWorkers ≤ (L.accounts batch).threadBudget ∧
    (L.accounts batch).threadBudget ≤ (L.accounts batch).hostBudget ∧
    (L.accounts batch).hostBudget < hostLimit
  shares : ∀ slot ∈ L.queue, 0 < slot.threads ∧
    slot.threads ≤ (L.accounts slot.batch).threadBudget
  listed : ∀ batch, (L.accounts batch).remaining ≠ 0 → batch ∈ L.batches
  nodup : L.batches.Nodup
  pool : L.queue ≠ [] → 0 < L.pool
  outside : ∀ worker, L.pool ≤ worker → L.footprints worker = none

section Facts

variable {L : Ledger} (h : LedgerInvariant L)

include h

/-- A batch without jobs has none in any place. -/
theorem LedgerInvariant.places_eq_zero {batch : Nat} (hjobs : (L.accounts batch).jobCount = 0) :
    queuedIn L.queue batch = 0 ∧ takenIn L.pool L.footprints batch = 0 ∧
      (L.discarded batch : Multiset Nat) = 0 ∧ settledIn L.settled batch = 0 := by
  have hplaces := h.places batch
  rw [hjobs, Multiset.range_zero, add_eq_zero, add_eq_zero, add_eq_zero] at hplaces
  exact ⟨hplaces.1.1.1, hplaces.1.1.2, hplaces.1.2, hplaces.2⟩

/-- A queued job is of a batch with jobs. -/
theorem LedgerInvariant.jobCount_of_queued {slot : Slot} (hslot : slot ∈ L.queue) :
    0 < (L.accounts slot.batch).jobCount := by
  rcases Nat.eq_zero_or_pos (L.accounts slot.batch).jobCount with hzero | hpos
  · have hqueued := (h.places_eq_zero hzero).1
    have hmem : slot.index ∈ queuedIn L.queue slot.batch :=
      Multiset.mem_coe.mpr (List.mem_map_of_mem (by simp [hslot]))
    rw [hqueued] at hmem
    exact absurd hmem (Multiset.notMem_zero _)
  · exact hpos

theorem LedgerInvariant.worker_lt {worker : Nat} {footprint : Footprint}
    (hheld : L.footprints worker = some footprint) : worker < L.pool := by
  by_contra hge
  rw [h.outside worker (Nat.le_of_not_lt hge)] at hheld
  cases hheld

/-- A counter that sums a share covers the share of each taken job. -/
theorem LedgerInvariant.share_le {worker : Nat} {footprint : Footprint}
    (hheld : L.footprints worker = some footprint) (share : Option Footprint → Nat) :
    share (some footprint) ≤ ∑ i ∈ Finset.range L.pool, share (L.footprints i) := by
  rw [← hheld]
  exact Finset.single_le_sum (f := fun i => share (L.footprints i)) (fun _ _ => Nat.zero_le _)
    (Finset.mem_range.mpr (h.worker_lt hheld))

/-- The counters of a batch cover the reservation of each of its jobs. -/
theorem LedgerInvariant.reserved_le {worker : Nat} {slot : Slot}
    (hheld : L.footprints worker = some ⟨slot, true, false⟩) :
    0 < (L.accounts slot.batch).activeWorkers ∧
      slot.threads ≤ (L.accounts slot.batch).activeThreads ∧
      slot.threads ≤ L.activeThreads := by
  have hworkers := h.share_le hheld (Footprint.activeIn slot.batch)
  have hthreads := h.share_le hheld (Footprint.threadsOf slot.batch)
  have hall := h.share_le hheld Footprint.threads
  rw [← h.activeWorkers] at hworkers
  rw [← h.activeThreads] at hthreads
  rw [← h.active] at hall
  simp only [Footprint.activeIn, Footprint.threadsOf, Footprint.threads, and_self, if_true,
    Bool.not_false, Bool.and_self] at hworkers hthreads hall
  exact ⟨hworkers, hthreads, hall⟩

/-- The queued jobs of a batch are remaining jobs. -/
theorem LedgerInvariant.queued_le (batch : Nat) :
    (L.queue.countP fun slot => slot.batch == batch) ≤ (L.accounts batch).remaining := by
  rw [h.remaining batch]
  exact Nat.le_add_right _ _

/-- Workers that join the pool have no share in any sum. -/
theorem LedgerInvariant.sum_grow {M : Type} [AddCommMonoid M] {pool : Nat} (hpool : L.pool ≤ pool)
    (share : Option Footprint → M) (hnone : share none = 0) :
    ∑ worker ∈ Finset.range pool, share (L.footprints worker) =
      ∑ worker ∈ Finset.range L.pool, share (L.footprints worker) := by
  apply sum_range_extend _ hpool
  intro worker hworker
  rw [h.outside worker hworker, hnone]

end Facts

/-- What a change of one footprint does to a share. -/
theorem share_split {M : Type} [AddCommMonoid M] {L : Ledger} {worker : Nat}
    {footprint : Option Footprint} (hworker : worker < L.pool)
    (hold : L.footprints worker = footprint) (share : Option Footprint → M)
    (footprint' : Option Footprint) :
    ∃ rest, ∑ i ∈ Finset.range L.pool, share (L.footprints i) = share footprint + rest ∧
      ∑ i ∈ Finset.range L.pool, share (Function.update L.footprints worker footprint' i) =
        share footprint' + rest := by
  obtain ⟨rest, hbefore, hafter⟩ := sum_range_update_split L.footprints share hworker footprint'
  rw [hold] at hbefore
  exact ⟨rest, hbefore, hafter⟩

/-- A change of one footprint that a share does not show. -/
theorem share_eq {M : Type} [AddCommMonoid M] {L : Ledger} {worker : Nat}
    (hworker : worker < L.pool) (share : Option Footprint → M) {footprint : Option Footprint}
    (hsame : share footprint = share (L.footprints worker)) :
    ∑ i ∈ Finset.range L.pool, share (Function.update L.footprints worker footprint i) =
      ∑ i ∈ Finset.range L.pool, share (L.footprints i) :=
  sum_range_update_eq L.footprints share hworker hsame

end DuckdbLerobot.Codec
