import Fe2o3.Lib.KeyedTable
import Fe2o3.Lib.Words
import Fe2o3.RuntimeModel.Records

/-!
# The reusable allocation pool

Best-fit leases of blocks whose generation advances with every release.

A call returns its result together with the pool it leaves; a refused release may still
quarantine its block.  `History` adds the leases handed out so far and those not yet released.
`Moves` says once what a call can do to a history, and the properties of the pool are derived
from it.
-/

namespace Fe2o3.MemoryPool

open Lib Lib.Words
open List hiding lookup lookup_append lookup_cons
open RuntimeModel (DeviceKey IdentityDigest)

/-! ### Records -/

def maxMemoryPoolBlocks : Nat := 65536

inductive BlockPhase where
  | free | leased | inFlight | completionObserved | quarantined
  deriving DecidableEq

structure LeaseIdentity where
  pool : IdentityDigest
  device : DeviceKey
  blockId : Nat
  generation : Nat
  deriving DecidableEq

structure Lease where
  identity : LeaseIdentity
  requestedBytes : Nat
  alignment : Nat
  deriving DecidableEq

/-- What a lease is for: one generation of one block. -/
def Lease.pair (lease : Lease) : Nat × Nat := (lease.identity.blockId, lease.identity.generation)

structure BlockRecord where
  blockId : Nat
  generation : Nat
  byteLen : Nat
  alignment : Nat
  phase : BlockPhase
  deriving DecidableEq

inductive PoolError where
  | invalidIdentity | invalidCapacity | invalidRequest | capacityExceeded | identityExhausted
  | unknownLease | staleLease | illegalTransition | invariantViolation
  deriving DecidableEq

/-- A refused transition hands the lease back. -/
structure TransitionFailure where
  error : PoolError
  lease : Lease
  deriving DecidableEq

structure Pool where
  identity : IdentityDigest
  device : DeviceKey
  byteCapacity : Nat
  blockCapacity : Nat
  committedBytes : Nat
  nextBlockId : Nat
  blocks : List BlockRecord
  deriving DecidableEq

namespace Pool

/-! ### Calls -/

def newModelOnly (identity : IdentityDigest) (device : DeviceKey)
    (byteCapacity blockCapacity : Nat) : Except PoolError Pool :=
  if identity = 0 ∨ device.physical = 0 ∨ device.generation = 0 then .error .invalidIdentity
  else if byteCapacity = 0 ∨ blockCapacity = 0 ∨ maxMemoryPoolBlocks < blockCapacity then
    .error .invalidCapacity
  else .ok ⟨identity, device, byteCapacity, blockCapacity, 0, 1, []⟩

/-- The source changes the block at an index; block ids are distinct, so the id finds the same
    block. -/
def setPhase (pool : Pool) (blockId : Nat) (phase : BlockPhase) : Pool :=
  { pool with
    blocks := amend BlockRecord.blockId blockId (fun block => { block with phase }) pool.blocks }

/-- Best fit: the smallest free block that serves the request. -/
def reusable (pool : Pool) (requestedBytes alignment : Nat) : Option BlockRecord :=
  (pool.blocks.filter fun block =>
    block.phase = .free ∧ requestedBytes ≤ block.byteLen ∧ alignment ≤ block.alignment).argmin
      fun block => toLex (block.byteLen, toLex (block.alignment, block.blockId))

/-- A new block at the end of the table. -/
def grow (pool : Pool) (requestedBytes alignment : Nat) :
    Except PoolError (BlockRecord × Pool) := do
  failIf (pool.blockCapacity ≤ pool.blocks.length) .capacityExceeded
  let rounded ← okOr .invalidRequest (alignUp requestedBytes alignment)
  let committed ← okOr .capacityExceeded
    ((checkedAdd pool.committedBytes rounded).filter (· ≤ pool.byteCapacity))
  let nextBlockId ← okOr .identityExhausted (checkedAdd pool.nextBlockId 1)
  let block : BlockRecord := ⟨pool.nextBlockId, 1, rounded, alignment, .free⟩
  return (block, { pool with
    nextBlockId, committedBytes := committed, blocks := pool.blocks ++ [block] })

def leaseOf (pool : Pool) (block : BlockRecord) (requestedBytes alignment : Nat) : Lease :=
  ⟨⟨pool.identity, pool.device, block.blockId, block.generation⟩, requestedBytes, alignment⟩

def leaseModelOnly (pool : Pool) (requestedBytes alignment : Nat) : Except PoolError Lease × Pool :=
  if requestedBytes = 0 ∨ alignment = 0 ∨ isPowerOfTwo alignment = false then
    (.error .invalidRequest, pool)
  else
    match pool.reusable requestedBytes alignment with
    | some block =>
      (.ok (pool.leaseOf block requestedBytes alignment), pool.setPhase block.blockId .leased)
    | none =>
      match pool.grow requestedBytes alignment with
      | .error error => (.error error, pool)
      | .ok (block, pool) =>
        (.ok (pool.leaseOf block requestedBytes alignment), pool.setPhase block.blockId .leased)

/-- The block a lease is for. -/
def leaseIndex (pool : Pool) (lease : Lease) : Except PoolError BlockRecord := do
  failIf (lease.identity.pool ≠ pool.identity ∨ lease.identity.device ≠ pool.device) .unknownLease
  let block ← okOr .unknownLease (lookup BlockRecord.blockId lease.identity.blockId pool.blocks)
  failIf (block.generation ≠ lease.identity.generation) .staleLease
  return block

def transition (pool : Pool) (lease : Lease) (expected next : BlockPhase) :
    Except TransitionFailure Lease × Pool :=
  match pool.leaseIndex lease with
  | .error error => (.error ⟨error, lease⟩, pool)
  | .ok block =>
    if block.phase = expected then (.ok lease, pool.setPhase block.blockId next)
    else (.error ⟨.illegalTransition, lease⟩, pool)

def markInFlightModelOnly (pool : Pool) (lease : Lease) : Except TransitionFailure Lease × Pool :=
  pool.transition lease .leased .inFlight

def observeCompletionModelOnly (pool : Pool) (lease : Lease) :
    Except TransitionFailure Lease × Pool :=
  pool.transition lease .inFlight .completionObserved

def releaseModelOnly (pool : Pool) (lease : Lease) : Except TransitionFailure Unit × Pool :=
  match pool.leaseIndex lease with
  | .error error => (.error ⟨error, lease⟩, pool)
  | .ok block =>
    if block.phase = .leased ∨ block.phase = .completionObserved then
      match checkedAdd block.generation 1 with
      | none =>
        (.error ⟨.identityExhausted, lease⟩, pool.setPhase block.blockId .quarantined)
      | some generation =>
        (.ok (), { pool with
          blocks := amend BlockRecord.blockId block.blockId
            (fun block => { block with generation, phase := .free }) pool.blocks })
    else (.error ⟨.illegalTransition, lease⟩, pool)

def quarantineModelOnly (pool : Pool) (lease : Lease) : Except TransitionFailure Unit × Pool :=
  match pool.leaseIndex lease with
  | .error error => (.error ⟨error, lease⟩, pool)
  | .ok block =>
    if block.phase = .free then (.error ⟨.illegalTransition, lease⟩, pool)
    else (.ok (), pool.setPhase block.blockId .quarantined)

def checkedTotal (blocks : List BlockRecord) : Option Nat :=
  (blocks.map BlockRecord.byteLen).foldlM checkedAdd 0

def trimModelOnly (pool : Pool) : Except PoolError Nat × Pool :=
  match checkedTotal (pool.blocks.filter fun block => block.phase = .free) with
  | none => (.error .invariantViolation, pool)
  | some released =>
    let kept := { pool with
      blocks := pool.blocks.filter fun block => !decide (block.phase = .free) }
    match checkedSub pool.committedBytes released with
    | none => (.error .invariantViolation, kept)
    | some committedBytes => (.ok released, { kept with committedBytes })

def validateBlock (earlier : List BlockRecord) (block : BlockRecord) : Except PoolError Unit :=
  failIf (block.blockId = 0 ∨ block.generation = 0 ∨ block.byteLen = 0 ∨ block.alignment = 0 ∨
    isPowerOfTwo block.alignment = false ∨ ∃ prior ∈ earlier, prior.blockId = block.blockId)
    .invariantViolation

def validateGlobalInvariants (pool : Pool) : Except PoolError Unit := do
  failIf (pool.identity = 0 ∨ pool.device.physical = 0 ∨ pool.device.generation = 0 ∨
    pool.blockCapacity < pool.blocks.length ∨ maxMemoryPoolBlocks < pool.blockCapacity ∨
    pool.nextBlockId = 0) .invariantViolation
  checkRows validateBlock [] pool.blocks
  let committed ← okOr .invariantViolation (checkedTotal pool.blocks)
  failIf (committed ≠ pool.committedBytes ∨ pool.byteCapacity < committed) .invariantViolation

end Pool

/-! ### Histories -/

/-- A call; a lease handed in may be any value, in particular one issued before. -/
inductive Call where
  | lease (requestedBytes alignment : Nat)
  | markInFlight (lease : Lease)
  | observeCompletion (lease : Lease)
  | release (lease : Lease)
  | quarantine (lease : Lease)
  | trim

/-- The pool with the leases issued so far and those of them that were not released since. -/
structure History where
  pool : Pool
  issued : List Lease
  held : List Lease

namespace History

def step (h : History) : Call → History
  | .lease requestedBytes alignment =>
    match h.pool.leaseModelOnly requestedBytes alignment with
    | (.ok lease, pool) => ⟨pool, lease :: h.issued, lease :: h.held⟩
    | (.error _, pool) => { h with pool }
  | .markInFlight lease => { h with pool := (h.pool.markInFlightModelOnly lease).2 }
  | .observeCompletion lease => { h with pool := (h.pool.observeCompletionModelOnly lease).2 }
  | .release lease =>
    match h.pool.releaseModelOnly lease with
    | (.ok (), pool) =>
      { h with pool, held := h.held.filter fun other => other.pair ≠ lease.pair }
    | (.error _, pool) => { h with pool }
  | .quarantine lease => { h with pool := (h.pool.quarantineModelOnly lease).2 }
  | .trim => { h with pool := h.pool.trimModelOnly.2 }

def run (pool : Pool) (calls : List Call) : History := calls.foldl step ⟨pool, [], []⟩

end History

/-! ### What holds of every history -/

def totalBytes (blocks : List BlockRecord) : Nat := (blocks.map BlockRecord.byteLen).sum

structure BlockRecord.Proper (bound : Nat) (block : BlockRecord) : Prop where
  id : 0 < block.blockId ∧ block.blockId < bound
  generation : 0 < block.generation
  bytes : 0 < block.byteLen
  alignment : isPowerOfTwo block.alignment = true

/-- The block serves the lease. -/
structure Backs (block : BlockRecord) (lease : Lease) : Prop where
  id : block.blockId = lease.identity.blockId
  generation : block.generation = lease.identity.generation
  occupied : block.phase ≠ .free
  bytes : lease.requestedBytes ≤ block.byteLen
  alignment : lease.alignment ∣ block.alignment

/-- The block can no longer be leased in the lease's generation. -/
def Past (block : BlockRecord) (lease : Lease) : Prop :=
  block.blockId = lease.identity.blockId → lease.identity.generation < block.generation ∨
    lease.identity.generation = block.generation ∧ block.phase ≠ .free

structure Pool.Valid (capacity : Nat) (pool : Pool) : Prop where
  named : pool.identity ≠ 0 ∧ pool.device.physical ≠ 0 ∧ pool.device.generation ≠ 0
  limit : pool.byteCapacity = capacity
  room : pool.blocks.length ≤ pool.blockCapacity ∧ pool.blockCapacity ≤ maxMemoryPoolBlocks
  next : 0 < pool.nextBlockId
  proper : ∀ block ∈ pool.blocks, block.Proper pool.nextBlockId
  distinct : DistinctKeys BlockRecord.blockId pool.blocks
  committed : pool.committedBytes = totalBytes pool.blocks
  bounded : pool.committedBytes ≤ capacity

structure Sound (capacity : Nat) (h : History) : Prop where
  valid : h.pool.Valid capacity
  backed : ∀ lease ∈ h.held, ∃ block ∈ h.pool.blocks, Backs block lease
  once : (h.held.map fun lease => lease.identity.blockId).Nodup
  issued : ∀ lease ∈ h.issued, lease.identity.blockId < h.pool.nextBlockId ∧
    ∀ block ∈ h.pool.blocks, Past block lease
  unique : (h.issued.map Lease.pair).Nodup

/-! ### What a call can do -/

/-- The phases a block passes through while it is out. -/
inductive Turns : BlockPhase → BlockPhase → Prop where
  | submit : Turns .leased .inFlight
  | observe : Turns .inFlight .completionObserved
  | quarantine {phase : BlockPhase} (occupied : phase ≠ .free) : Turns phase .quarantined

theorem Turns.ne_free {before after : BlockPhase} (turns : Turns before after) : after ≠ .free := by
  cases turns <;> nofun

namespace History

/-- The history after a block was leased. -/
def lend (h : History) (block : BlockRecord) (requestedBytes alignment : Nat) : History :=
  let lease := h.pool.leaseOf block requestedBytes alignment
  ⟨h.pool.setPhase block.blockId .leased, lease :: h.issued, lease :: h.held⟩

/-- The history with one more block. -/
def push (h : History) (block : BlockRecord) : History :=
  { h with pool := { h.pool with
      nextBlockId := h.pool.nextBlockId + 1
      committedBytes := h.pool.committedBytes + block.byteLen
      blocks := h.pool.blocks ++ [block] } }

/-- The history after the lease of `block` was released. -/
def giveBack (h : History) (block : BlockRecord) : History :=
  { h with
    pool := { h.pool with
      blocks := amend BlockRecord.blockId block.blockId
        (fun old => { old with generation := block.generation + 1, phase := .free }) h.pool.blocks }
    held := h.held.filter fun other => other.pair ≠ (block.blockId, block.generation) }

/-- The history without its free blocks. -/
def trimmed (h : History) : History :=
  let kept := h.pool.blocks.filter fun block => !decide (block.phase = .free)
  { h with pool := { h.pool with blocks := kept, committedBytes := totalBytes kept } }

end History

structure Serves (block : BlockRecord) (requestedBytes alignment : Nat) : Prop where
  free : block.phase = .free
  bytes : requestedBytes ≤ block.byteLen
  alignment : alignment ∣ block.alignment

/-- A block that can be added to the pool. -/
structure Fresh (pool : Pool) (block : BlockRecord) : Prop where
  room : pool.blocks.length < pool.blockCapacity
  id : block.blockId = pool.nextBlockId
  generation : 0 < block.generation
  bytes : 0 < block.byteLen
  alignment : isPowerOfTwo block.alignment = true
  bounded : pool.committedBytes + block.byteLen ≤ pool.byteCapacity

inductive Moves (h : History) : History → Prop where
  | stay : Moves h h
  | lend {block : BlockRecord} {requestedBytes alignment : Nat} (mem : block ∈ h.pool.blocks)
      (serves : Serves block requestedBytes alignment) :
      Moves h (h.lend block requestedBytes alignment)
  | grow {block : BlockRecord} {requestedBytes alignment : Nat} (fresh : Fresh h.pool block)
      (serves : Serves block requestedBytes alignment) :
      Moves h ((h.push block).lend block requestedBytes alignment)
  | turn {block : BlockRecord} {next : BlockPhase} (mem : block ∈ h.pool.blocks)
      (turns : Turns block.phase next) :
      Moves h { h with pool := h.pool.setPhase block.blockId next }
  | giveBack {block : BlockRecord} (mem : block ∈ h.pool.blocks)
      (quiescent : block.phase = .leased ∨ block.phase = .completionObserved) :
      Moves h (h.giveBack block)
  | trim : Moves h h.trimmed

variable {alignment requestedBytes : Nat} {f : BlockRecord → BlockRecord} {lease : Lease}

section

variable {capacity : Nat} {h after : History} {pool : Pool}

theorem foldlM_checkedAdd {values : List Nat} {start : Nat} (hfits : start + values.sum < 2 ^ 64) :
    values.foldlM checkedAdd start = some (start + values.sum) := by
  induction values generalizing start with
  | nil => rfl
  | cons value values ih =>
    rw [sum_cons, ← Nat.add_assoc] at hfits ⊢
    rw [foldlM_cons, checkedAdd, if_pos (by omega)]
    exact ih hfits

theorem checkedTotal_eq_some {blocks : List BlockRecord} (hfits : totalBytes blocks < 2 ^ 64) :
    Pool.checkedTotal blocks = some (totalBytes blocks) := by
  rw [totalBytes, ← Nat.zero_add (sum _)] at hfits ⊢
  exact foldlM_checkedAdd hfits

theorem totalBytes_filter (p : BlockRecord → Bool) (blocks : List BlockRecord) : totalBytes blocks =
    totalBytes (blocks.filter p) + totalBytes (blocks.filter fun b => !p b) := by
  have hperm := (filter_append_perm p blocks).map BlockRecord.byteLen
  rw [totalBytes, ← hperm.sum_nat, map_append, sum_append_nat]
  rfl

variable {block : BlockRecord}

theorem leaseIndex_eq_ok (hfound : pool.leaseIndex lease = .ok block) :
    block ∈ pool.blocks ∧ lease.pair = (block.blockId, block.generation) := by
  simp only [Pool.leaseIndex, bind_eq_ok, okOr_eq_ok, failIf_eq_ok, pure_eq_ok,
    decide_eq_false_iff_not, not_not] at hfound
  obtain ⟨_, -, block, hblock, _, hgeneration, rfl⟩ := hfound
  exact ⟨lookup_mem hblock, by rw [Lease.pair, lookup_key hblock, hgeneration]⟩

theorem grow_eq_ok (hpositive : 0 < requestedBytes) (hpower : isPowerOfTwo alignment = true)
    (hgrow : h.pool.grow requestedBytes alignment = .ok (block, pool)) :
    Fresh h.pool block ∧ Serves block requestedBytes alignment ∧ pool = (h.push block).pool := by
  simp only [Pool.grow, bind_eq_ok, failIf_eq_ok, decide_eq_false_iff_not, Nat.not_le, okOr_eq_ok,
    alignUp_eq_some, Option.filter_eq_some_iff, decide_eq_true_eq, checkedAdd_eq_some] at hgrow
  obtain ⟨_, hroom, _, ⟨-, rfl⟩, _, ⟨⟨rfl, -⟩, hbounded⟩, _, ⟨rfl, -⟩, ⟨⟩⟩ := hgrow
  have hle := le_alignDown requestedBytes hpower
  exact ⟨⟨hroom, rfl, Nat.one_pos, Nat.lt_of_lt_of_le hpositive hle, hpower, hbounded⟩,
    ⟨rfl, hle, Nat.dvd_refl _⟩, rfl⟩

theorem transition_moves {expected next : BlockPhase} (turns : Turns expected next) :
    Moves h { h with pool := (h.pool.transition lease expected next).2 } := by
  rw [Pool.transition]
  cases hfound : h.pool.leaseIndex lease with
  | error error => exact .stay
  | ok block =>
    by_cases hphase : block.phase = expected
    · simp only [hphase, ↓reduceIte]
      exact .turn (leaseIndex_eq_ok hfound).1 (hphase ▸ turns)
    · simp only [hphase, ↓reduceIte]
      exact .stay

/-- Every call makes one move. -/
theorem step_moves (sound : Sound capacity h) (hcapacity : capacity < 2 ^ 64) (call : Call) :
    Moves h (h.step call) := by
  cases call with
  | lease requestedBytes alignment =>
    simp only [History.step, Pool.leaseModelOnly]
    by_cases hrequest : requestedBytes = 0 ∨ alignment = 0 ∨ isPowerOfTwo alignment = false
    · rw [if_pos hrequest]
      exact .stay
    · rw [if_neg hrequest]
      simp only [not_or, Bool.not_eq_false] at hrequest
      obtain ⟨hpositive, -, hpower⟩ := hrequest
      cases hreusable : h.pool.reusable requestedBytes alignment with
      | some block =>
        have hmem := argmin_mem hreusable
        rw [mem_filter, decide_eq_true_eq] at hmem
        obtain ⟨hmem, hfree, hbytes, halignment⟩ := hmem
        have hproper := (sound.valid.proper block hmem).alignment
        exact .lend hmem ⟨hfree, hbytes, dvd_of_isPowerOfTwo hpower hproper halignment⟩
      | none =>
        cases hgrow : h.pool.grow requestedBytes alignment with
        | error error => exact .stay
        | ok grown =>
          obtain ⟨block, pool⟩ := grown
          obtain ⟨hfresh, hserves, rfl⟩ := grow_eq_ok (Nat.pos_of_ne_zero hpositive) hpower hgrow
          exact .grow hfresh hserves
  | markInFlight lease => exact transition_moves .submit
  | observeCompletion lease => exact transition_moves .observe
  | release lease =>
    simp only [History.step, Pool.releaseModelOnly]
    cases hfound : h.pool.leaseIndex lease with
    | error error => exact .stay
    | ok block =>
      obtain ⟨hmem, hpair⟩ := leaseIndex_eq_ok hfound
      by_cases hphase : block.phase = .leased ∨ block.phase = .completionObserved
      · simp only [hphase, ↓reduceIte]
        cases hnext : checkedAdd block.generation 1 with
        | none => exact .turn hmem (.quarantine (by rintro hfree; simp [hfree] at hphase))
        | some generation =>
          obtain ⟨rfl, -⟩ := checkedAdd_eq_some.mp hnext
          simp only [hpair]
          exact .giveBack hmem hphase
      · simp only [hphase, ↓reduceIte]
        exact .stay
  | quarantine lease =>
    simp only [History.step, Pool.quarantineModelOnly]
    cases hfound : h.pool.leaseIndex lease with
    | error error => exact .stay
    | ok block =>
      by_cases hphase : block.phase = .free
      · simp only [hphase, ↓reduceIte]
        exact .stay
      · simp only [hphase, ↓reduceIte]
        exact .turn (leaseIndex_eq_ok hfound).1 (.quarantine hphase)
  | trim =>
    have htotal := totalBytes_filter (fun block => decide (block.phase = .free)) h.pool.blocks
    rw [← sound.valid.committed] at htotal
    have hbounded := sound.valid.bounded
    simp only [History.step, Pool.trimModelOnly]
    rw [checkedTotal_eq_some (by omega)]
    simp only [checkedSub_eq_some.mpr htotal]
    exact .trim

/-! ### Every move keeps the invariant -/

/-- The table after one block was changed in phase or generation. -/
theorem Pool.Valid.amend (valid : pool.Valid capacity) {k : Nat}
    (hkept : ∀ block, (f block).blockId = block.blockId ∧ (f block).byteLen = block.byteLen ∧
      (f block).alignment = block.alignment)
    (hgeneration : ∀ block, 0 < block.generation → 0 < (f block).generation) :
    Pool.Valid capacity { pool with blocks := amend BlockRecord.blockId k f pool.blocks } where
  named := valid.named
  limit := valid.limit
  room := by
    rw [length_amend]
    exact valid.room
  next := valid.next
  proper := by
    refine forall_mem_amend valid.proper fun block _ proper => ?_
    obtain ⟨hid, hbytes, halignment⟩ := hkept block
    exact ⟨hid ▸ proper.id, hgeneration block proper.generation, hbytes ▸ proper.bytes,
      halignment ▸ proper.alignment⟩
  distinct := distinctKeys_amend (fun block => (hkept block).1) valid.distinct
  committed := by
    rw [totalBytes, map_amend_of_eq fun block => (hkept block).2.1]
    exact valid.committed
  bounded := valid.bounded

/-- The change of another block leaves this one in the table. -/
theorem Pool.Valid.mem_amend {k : Nat} (valid : pool.Valid capacity) (mem : block ∈ pool.blocks)
    (hne : block.blockId ≠ k)
    (hkept : ∀ block, (f block).blockId = block.blockId := by exact fun _ => rfl) :
    block ∈ Lib.amend BlockRecord.blockId k f pool.blocks :=
  lookup_mem ((lookup_amend_of_ne hkept hne).trans (lookup_of_mem valid.distinct mem))

section

variable (sound : Sound capacity h)
include sound

theorem Sound.push (fresh : Fresh h.pool block) : Sound capacity (h.push block) := by
  have hbelow : ∀ other ∈ h.pool.blocks, other.blockId < block.blockId :=
    fun other hmem => fresh.id ▸ (sound.valid.proper other hmem).id.2
  refine ⟨⟨sound.valid.named, sound.valid.limit, ?_, Nat.succ_pos _, ?_, ?_, ?_, ?_⟩,
    ?_, sound.once, ?_, sound.unique⟩
  · exact ⟨length_append_le fresh.room, sound.valid.room.2⟩
  · refine forall_mem_append_new (fun other hmem => ?_) ?_
    · obtain ⟨hid, hgeneration, hbytes, halignment⟩ := sound.valid.proper other hmem
      exact ⟨⟨hid.1, Nat.lt_succ_of_lt hid.2⟩, hgeneration, hbytes, halignment⟩
    · exact ⟨⟨fresh.id ▸ sound.valid.next, fresh.id ▸ Nat.lt_succ_self _⟩, fresh.generation,
        fresh.bytes, fresh.alignment⟩
  · exact distinctKeys_append sound.valid.distinct fun other hmem => (hbelow other hmem).ne
  · rw [History.push, sound.valid.committed]
    simp [totalBytes]
  · exact sound.valid.limit ▸ fresh.bounded
  · intro lease hlease
    obtain ⟨other, hmem, hbacks⟩ := sound.backed lease hlease
    exact ⟨other, mem_append_left _ hmem, hbacks⟩
  · intro lease hlease
    obtain ⟨hid, hpast⟩ := sound.issued lease hlease
    refine ⟨Nat.lt_succ_of_lt hid, forall_mem_append_new hpast fun hsame => ?_⟩
    rw [← hsame, fresh.id] at hid
    exact absurd hid (Nat.lt_irrefl _)

/-- A block that stays out, or leaves the free ones. -/
theorem Sound.setPhase {k : Nat} {next : BlockPhase}
    (hnext : next ≠ .free) : Sound capacity { h with pool := h.pool.setPhase k next } where
  valid := sound.valid.amend (fun _ => ⟨rfl, rfl, rfl⟩) fun _ hpositive => hpositive
  backed := by
    intro lease hlease
    obtain ⟨block, hmem, hbacks⟩ := sound.backed lease hlease
    obtain ⟨found, hfound, rfl | rfl⟩ : ∃ found ∈ (h.pool.setPhase k next).blocks,
        found = block ∨ found = { block with phase := next } := mem_amend_of_mem hmem
    · exact ⟨found, hfound, hbacks⟩
    · exact ⟨_, hfound, { hbacks with occupied := hnext }⟩
  once := sound.once
  issued := by
    intro lease hlease
    obtain ⟨hid, hpast⟩ := sound.issued lease hlease
    exact ⟨hid, forall_mem_amend hpast fun block _ hpast hsame =>
      (hpast hsame).imp_right fun hgeneration => ⟨hgeneration.1, hnext⟩⟩
  unique := sound.unique

theorem Sound.lend (mem : block ∈ h.pool.blocks) (serves : Serves block requestedBytes alignment) :
    Sound capacity (h.lend block requestedBytes alignment) := by
  obtain ⟨valid, backed, once, issued, unique⟩ :=
    @Sound.setPhase _ _ sound block.blockId .leased nofun
  have hdistinct := sound.valid.distinct
  have hleased := lookup_mem (lookup_amend_self (f := fun old => { old with phase := .leased })
    (fun _ => rfl) (lookup_of_mem hdistinct mem))
  refine ⟨valid, ?_, ?_, ?_, ?_⟩
  · refine forall_mem_cons.mpr ⟨?_, backed⟩
    exact ⟨_, hleased, rfl, rfl, nofun, serves.bytes, serves.alignment⟩
  · refine nodup_cons.mpr ⟨fun hmem => ?_, once⟩
    -- a lease still held would be backed by a block that is not free
    obtain ⟨lease, hlease, hid⟩ := mem_map.mp hmem
    obtain ⟨other, hother, hbacks⟩ := sound.backed lease hlease
    obtain rfl := eq_of_same_key hdistinct hother mem (hbacks.id.trans hid)
    exact hbacks.occupied serves.free
  · refine forall_mem_cons.mpr ⟨⟨(sound.valid.proper block mem).id.2, ?_⟩, issued⟩
    intro other hother hsame
    obtain rfl := eq_of_same_key valid.distinct hother hleased hsame
    exact .inr ⟨rfl, nofun⟩
  · refine nodup_cons.mpr ⟨fun hmem => ?_, unique⟩
    obtain ⟨lease, hlease, hpair⟩ := mem_map.mp hmem
    obtain ⟨hid, hgeneration⟩ := Prod.mk.inj hpair
    obtain hlt | ⟨-, hphase⟩ := (sound.issued lease hlease).2 block mem hid.symm
    · exact absurd hgeneration hlt.ne
    · exact hphase serves.free

theorem Sound.giveBack (mem : block ∈ h.pool.blocks) : Sound capacity (h.giveBack block) where
  valid := sound.valid.amend (fun _ => ⟨rfl, rfl, rfl⟩) fun _ _ => Nat.succ_pos _
  backed := by
    intro lease hlease
    obtain ⟨hlease, hother⟩ := mem_filter.mp hlease
    obtain ⟨found, hfound, hbacks⟩ := sound.backed lease hlease
    refine ⟨found, sound.valid.mem_amend hfound fun hid => ?_, hbacks⟩
    obtain rfl := eq_of_same_key sound.valid.distinct hfound mem hid
    exact of_decide_eq_true hother (Prod.ext hbacks.id.symm hbacks.generation.symm)
  once := (filter_sublist.map _).nodup sound.once
  issued := by
    intro lease hlease
    obtain ⟨hid, hpast⟩ := sound.issued lease hlease
    refine ⟨hid, forall_mem_amend hpast fun old hold hpast hsame => .inl ?_⟩
    obtain rfl := Option.mem_unique hold (lookup_of_mem sound.valid.distinct mem)
    obtain hlt | ⟨heq, -⟩ := hpast hsame
    · exact Nat.lt_succ_of_lt hlt
    · exact Nat.lt_succ_of_le heq.le
  unique := sound.unique

theorem Sound.trim : Sound capacity h.trimmed := by
  have htotal := totalBytes_filter (fun block => decide (block.phase = .free)) h.pool.blocks
  rw [← sound.valid.committed] at htotal
  have hkept : ∀ block ∈ h.trimmed.pool.blocks, block ∈ h.pool.blocks :=
    fun block hmem => (mem_filter.mp hmem).1
  refine ⟨⟨sound.valid.named, sound.valid.limit, ?_, sound.valid.next, ?_, ?_, rfl, ?_⟩, ?_,
    sound.once, ?_, sound.unique⟩
  · exact ⟨(length_filter_le _ _).trans sound.valid.room.1, sound.valid.room.2⟩
  · exact fun block hmem => sound.valid.proper block (hkept block hmem)
  · exact sound.valid.distinct.sublist filter_sublist
  · exact (htotal ▸ Nat.le_add_left _ _).trans sound.valid.bounded
  · intro lease hlease
    obtain ⟨block, hmem, hbacks⟩ := sound.backed lease hlease
    exact ⟨block, mem_filter.mpr ⟨hmem, by simpa using hbacks.occupied⟩, hbacks⟩
  · intro lease hlease
    obtain ⟨hid, hpast⟩ := sound.issued lease hlease
    exact ⟨hid, fun block hmem => hpast block (hkept block hmem)⟩

end

theorem Moves.sound (moves : Moves h after) (sound : Sound capacity h) : Sound capacity after := by
  cases moves with
  | stay => exact sound
  | lend mem serves => exact sound.lend mem serves
  | grow fresh serves => exact (sound.push fresh).lend (by simp [History.push]) serves
  | turn mem turns => exact sound.setPhase turns.ne_free
  | giveBack mem quiescent => exact sound.giveBack mem
  | trim => exact sound.trim

theorem run_sound (hcapacity : capacity < 2 ^ 64) (start : Sound capacity ⟨pool, [], []⟩)
    (calls : List Call) : Sound capacity (History.run pool calls) := by
  suffices hrun : ∀ h, Sound capacity h → Sound capacity (calls.foldl History.step h) from
    hrun _ start
  induction calls with
  | nil => exact fun h sound => sound
  | cons call calls ih => exact fun h sound => ih _ ((step_moves sound hcapacity call).sound sound)

theorem sound_new {identity : IdentityDigest} {device : DeviceKey} {blockCapacity : Nat}
    (hnew : Pool.newModelOnly identity device capacity blockCapacity = .ok pool) :
    Sound capacity ⟨pool, [], []⟩ := by
  rw [Pool.newModelOnly, check_eq_ok, check_eq_ok] at hnew
  obtain ⟨hnamed, hcapacity, hnew⟩ := hnew
  cases hnew
  simp only [not_or, Nat.not_lt] at hnamed hcapacity
  exact ⟨⟨hnamed, rfl, ⟨Nat.zero_le _, hcapacity.2.2⟩, Nat.one_pos, nofun, .nil, rfl,
    Nat.zero_le _⟩, nofun, .nil, nofun, .nil⟩

/-! ### What follows -/

theorem Pool.Valid.validates (valid : pool.Valid capacity) (hcapacity : capacity < 2 ^ 64) :
    pool.validateGlobalInvariants = .ok () := by
  obtain ⟨⟨hidentity, hphysical, hgeneration⟩, hlimit, ⟨hroom, hmaximum⟩, hnext, hproper, hdistinct,
    hcommitted, hbounded⟩ := valid
  have hrows : checkRows Pool.validateBlock [] pool.blocks = .ok () := by
    refine checkRows_ok (fun earlier block proper hearlier => ?_) hproper hdistinct
    have hpower := proper.alignment
    refine failIf_eq_ok.mpr (decide_eq_false ?_)
    simp only [not_or, not_exists, not_and]
    exact ⟨proper.id.1.ne', proper.generation.ne', proper.bytes.ne',
      (by rintro hzero; rw [hzero] at hpower; cases hpower), by rw [hpower]; nofun, hearlier⟩
  have htotal := @checkedTotal_eq_some pool.blocks (by omega)
  rw [Pool.validateGlobalInvariants, seq_eq_ok, seq_eq_ok, htotal]
  refine ⟨?_, hrows, ?_⟩
  · simp [hidentity, hphysical, hgeneration, hroom, hmaximum, hnext.ne']
  · simp only [okOr, ← hcommitted, hlimit]
    exact failIf_eq_ok.mpr (decide_eq_false (by simpa using hbounded))

/-- What a call may do to a block in flight or in quarantine. -/
structure Guarded (block : BlockRecord) (before after : History) : Prop where
  inFlight : block.phase = .inFlight →
    ∃ phase, phase ≠ .free ∧ phase ≠ .leased ∧ { block with phase } ∈ after.pool.blocks
  quarantined : block.phase = .quarantined → block ∈ after.pool.blocks
  notLeased : ∀ lease ∈ after.issued,
    lease ∈ before.issued ∨ lease.identity.blockId ≠ block.blockId

theorem Pool.Valid.ne_of_phase {block other : BlockRecord} (valid : pool.Valid capacity)
    (mem : block ∈ pool.blocks) (hother : other ∈ pool.blocks)
    (hphase : block.phase ≠ other.phase) : block.blockId ≠ other.blockId :=
  fun hid => hphase (congrArg _ (eq_of_same_key valid.distinct mem hother hid))

theorem guarded_of_mem (mem : block ∈ after.pool.blocks)
    (hissued : ∀ lease ∈ after.issued, lease ∈ h.issued ∨
      lease.identity.blockId ≠ block.blockId := by exact fun _ => .inl) :
    Guarded block h after :=
  ⟨fun hphase => ⟨.inFlight, nofun, nofun, by rwa [← hphase]⟩, fun _ => mem, hissued⟩

theorem Moves.guarded (moves : Moves h after) (sound : Sound capacity h)
    (mem : block ∈ h.pool.blocks) (hphase : block.phase = .inFlight ∨ block.phase = .quarantined) :
    Guarded block h after := by
  cases moves with
  | stay => exact guarded_of_mem mem
  | lend other serves =>
    have hne := sound.valid.ne_of_phase mem other (by rw [serves.free]; grind)
    exact guarded_of_mem (sound.valid.mem_amend mem hne)
      (forall_mem_cons.mpr ⟨.inr hne.symm, fun _ => .inl⟩)
  | grow fresh serves =>
    have hne : block.blockId ≠ _ := (fresh.id ▸ (sound.valid.proper block mem).id.2).ne
    exact guarded_of_mem ((sound.push fresh).valid.mem_amend (mem_append_left _ mem) hne)
      (forall_mem_cons.mpr ⟨.inr hne.symm, fun _ => .inl⟩)
  | @turn changed next other turns =>
    by_cases hid : block.blockId = changed.blockId
    · obtain rfl := eq_of_same_key sound.valid.distinct mem other hid
      have hfound := lookup_mem (lookup_amend_self (f := fun old => { old with phase := next })
        (fun _ => rfl) (lookup_of_mem sound.valid.distinct mem))
      refine ⟨fun hphase => ⟨next, turns.ne_free, ?_, hfound⟩, fun hphase => ?_, fun _ => .inl⟩
      · rw [hphase] at turns
        cases turns <;> nofun
      · rw [hphase] at turns
        cases turns
        have hsame : { block with phase := .quarantined } = block := by rw [← hphase]
        exact hsame ▸ hfound
    · exact guarded_of_mem (sound.valid.mem_amend mem hid)
  | giveBack other quiescent =>
    have hne := sound.valid.ne_of_phase mem other (by grind)
    exact guarded_of_mem (sound.valid.mem_amend mem hne)
  | trim => exact guarded_of_mem (mem_filter.mpr ⟨mem, by grind⟩)

/-- **Exclusive leases.**  After any calls on a new pool, no block has two leases that were not
    released, no generation of a block was leased twice, and every lease still held is served by a
    block that is large and aligned enough.  No call frees, removes or leases a block that is in
    flight or in quarantine.  The committed bytes are those of the blocks and within the capacity,
    and the pool passes its own check. -/
theorem leases_exclusive {identity : IdentityDigest} {device : DeviceKey}
    {byteCapacity blockCapacity : Nat} (hbytes : byteCapacity < 2 ^ 64)
    (hnew : Pool.newModelOnly identity device byteCapacity blockCapacity = .ok pool)
    (calls : List Call) :
    ((History.run pool calls).held.map fun lease => lease.identity.blockId).Nodup ∧
      ((History.run pool calls).issued.map Lease.pair).Nodup ∧
      (∀ lease ∈ (History.run pool calls).held,
        ∃ block ∈ (History.run pool calls).pool.blocks, Backs block lease) ∧
      (∀ block ∈ (History.run pool calls).pool.blocks,
        block.phase = .inFlight ∨ block.phase = .quarantined →
          ∀ call, Guarded block (History.run pool calls) ((History.run pool calls).step call)) ∧
      (History.run pool calls).pool.committedBytes =
        totalBytes (History.run pool calls).pool.blocks ∧
      (History.run pool calls).pool.committedBytes ≤ byteCapacity ∧
      (History.run pool calls).pool.validateGlobalInvariants = .ok () := by
  have sound := run_sound hbytes (sound_new hnew) calls
  exact ⟨sound.once, sound.unique, sound.backed,
    fun block mem hphase call => (step_moves sound hbytes call).guarded sound mem hphase,
    sound.valid.committed, sound.valid.bounded, sound.valid.validates hbytes⟩

end

/-- A pool that hands out a block, takes it back and hands it out again. -/
def reused : History :=
  .run ⟨7, ⟨1, 1⟩, 4096, 2, 0, 1, []⟩
    [.lease 100 64, .release ⟨⟨7, ⟨1, 1⟩, 1, 1⟩, 100, 64⟩, .lease 80 32]

theorem reused_block_new_generation :
    reused.issued.map Lease.pair = [(1, 2), (1, 1)] ∧ (reused.issued.map Lease.pair).Nodup :=
  ⟨by decide +kernel, (@leases_exclusive _ 7 ⟨1, 1⟩ 4096 2 (by decide) rfl _).2.1⟩

end Fe2o3.MemoryPool
