import LorePia.Base.Sort
import LorePia.Domain.Content
import LorePia.Domain.Error
import Mathlib.Data.Prod.Lex
import Mathlib.Data.String.Basic
import Mathlib.Logic.Relation

/-!
# The lifecycle outbox (`crates/storage/src/lifecycle_outbox.rs`)

The table keeps what happened in a conversation until its consequences are settled: workers claim occurrences for a
lease, and acknowledge them or return them. A time is the text that SQLite compares, of any linear order. What the
table's `CHECK` ties to the status is the status's own data. `delivery_attempts` does not wrap.
-/

namespace LorePia.Lifecycle

open Base

inductive LifecycleOccurrenceKind
  | conversationOpened
  | conversationStarted
  | beforeGeneration
  | afterGeneration
  | messageCommitted
deriving DecidableEq

structure LifecycleOccurrenceWrite (τ : Type) where
  occurrenceId : String
  eventKind : LifecycleOccurrenceKind
  conversationId : String
  branchId : String
  generationId : Option String
  occurredAt : τ
deriving DecidableEq

/-- The columns `status`, `lease_until` and `acknowledged_at`. -/
inductive Status (τ : Type)
  | pending
  | claimed (leaseUntil : τ)
  | acknowledged (acknowledgedAt : τ)
deriving DecidableEq

structure Occurrence (τ : Type) where
  write : LifecycleOccurrenceWrite τ
  availableAt : τ
  deliveryAttempts : Nat
  status : Status τ
deriving DecidableEq

/-- The rows of `core_lifecycle_outbox`. -/
abbrev Outbox (τ : Type) := List (Occurrence τ)

def maxLifecycleClaim : Nat := 256

def validateId (label value : String) : Except CoreError Unit :=
  rejectIf (value = "" ∨ 256 < value.utf8ByteSize ∨ trim value ≠ value ∨ value.toList.any isControl = true)
    (.invalid (label ++ " id is invalid"))

variable {τ : Type} [LinearOrder τ]

/-- `ORDER BY occurred_at, occurrence_id`. -/
def LifecycleOccurrenceWrite.key (write : LifecycleOccurrenceWrite τ) : τ ×ₗ String :=
  toLex (write.occurredAt, write.occurrenceId)

/-- What the claim of an occurrence waits for: the earlier ones of its branch, and the end of its generation. -/
def LifecycleOccurrenceWrite.follows (write predecessor : LifecycleOccurrenceWrite τ) : Bool :=
  (predecessor.conversationId = write.conversationId && predecessor.branchId = write.branchId &&
      predecessor.key < write.key) ||
    (write.eventKind = .messageCommitted && write.generationId.isSome &&
      predecessor.generationId = write.generationId && predecessor.eventKind = .afterGeneration)

namespace Occurrence

variable (row : Occurrence τ)

def id : String := row.write.occurrenceId

def isAcknowledged : Bool :=
  match row.status with
  | .acknowledged _ => true
  | _ => false

/-- The row is claimed, with a lease that a statement asks for. -/
def isClaimed (lease : τ → Bool) : Bool :=
  match row.status with
  | .claimed leaseUntil => lease leaseUntil
  | _ => false

/-- The row is there to be claimed: it is pending and available, or its lease has ended. -/
def due (now : τ) : Bool := (row.status = .pending && row.availableAt ≤ now) || row.isClaimed (· ≤ now)

def claim (now leaseUntil : τ) : Occurrence τ :=
  { row with status := .claimed leaseUntil, deliveryAttempts := row.deliveryAttempts + 1, availableAt := now }

/-- The row goes back to `pending`. -/
def release (availableAt : τ) : Occurrence τ := { row with status := .pending, availableAt }

def acknowledge (acknowledgedAt : τ) : Occurrence τ := { row with status := .acknowledged acknowledgedAt }

end Occurrence

namespace Outbox

variable (outbox : Outbox τ)

/-- An `UPDATE`: the number of rows that its `WHERE` finds, and the table with its `SET`. -/
def update (found : Occurrence τ → Bool) (set : Occurrence τ → Occurrence τ) : Nat × Outbox τ :=
  (outbox.countP found, outbox.map fun row => if found row then set row else row)

def readOccurrence (occurrenceId : String) : Except CoreError (Occurrence τ) :=
  okOr (outbox.find? fun row => row.id = occurrenceId) ⟨.notFound, "lifecycle occurrence was not found", false⟩

/-- The `WHERE` of a claim's query. -/
def claimable (now : τ) (row : Occurrence τ) : Bool :=
  row.due now && !outbox.any fun predecessor => !predecessor.isAcknowledged && row.write.follows predecessor.write

/-- The rows that a claim's query selects. -/
def candidates (now : τ) (limit : Nat) : List (Occurrence τ) :=
  (stableSort (fun a b => a.write.key ≤ b.write.key) (outbox.filter (claimable outbox now))).take limit

/-- The updates of a claim. -/
def claimEach (now leaseUntil : τ) : List String → Outbox τ → Except CoreError (List (Occurrence τ) × Outbox τ)
  | [], outbox => .ok ([], outbox)
  | occurrenceId :: rest, outbox => do
    let (changed, outbox) :=
      update outbox (fun row => row.id = occurrenceId && row.due now) (·.claim now leaseUntil)
    rejectIf (changed ≠ 1)
      ⟨.storageCorrupted, "lifecycle occurrence claim changed during an immediate transaction", false⟩
    let occurrence ← readOccurrence outbox occurrenceId
    let (claimed, outbox) ← claimEach now leaseUntil rest outbox
    .ok (occurrence :: claimed, outbox)

def claimCoreLifecycleOccurrences (now leaseUntil : τ) (limit : Nat) :
    Except CoreError (List (Occurrence τ) × Outbox τ) := do
  rejectIf (leaseUntil ≤ now) (.invalid "lifecycle occurrence lease must end after claim time")
  rejectIf (maxLifecycleClaim < limit) (.invalid "lifecycle occurrence claim limit exceeds 256")
  if limit = 0 then .ok ([], outbox)
  else claimEach now leaseUntil ((candidates outbox now limit).map (·.id)) outbox

/-- A delivery is settled. The id is the primary key, so a statement that is refused has changed no row. -/
def settle (occurrenceId : String) (expectedDeliveryAttempts : Nat) (set : Occurrence τ → Occurrence τ) :
    Except CoreError (Outbox τ) := do
  validateId "lifecycle occurrence" occurrenceId
  rejectIf (2 ^ 63 ≤ expectedDeliveryAttempts) (.invalid "delivery attempts exceed SQLite range")
  let (changed, outbox) := update outbox (fun row => row.id = occurrenceId && row.isClaimed (fun _ => true) &&
    row.deliveryAttempts = expectedDeliveryAttempts) set
  rejectIf (changed ≠ 1) (.invalid ("lifecycle occurrence delivery CAS conflict for " ++ occurrenceId))
  .ok outbox

def acknowledgeCoreLifecycleOccurrence (occurrenceId : String) (expectedDeliveryAttempts : Nat) (acknowledgedAt : τ) :
    Except CoreError (Outbox τ) :=
  settle outbox occurrenceId expectedDeliveryAttempts (·.acknowledge acknowledgedAt)

def retryCoreLifecycleOccurrenceAfter (occurrenceId : String) (expectedDeliveryAttempts : Nat) (availableAt : τ) :
    Except CoreError (Outbox τ) :=
  settle outbox occurrenceId expectedDeliveryAttempts (·.release availableAt)

/-- `recover_core_lifecycle_occurrence_leases`, and `recover_all_core_lifecycle_occurrence_leases` with any lease. -/
def recoverLeases (lease : τ → Bool) (now : τ) : Nat × Outbox τ :=
  update outbox (·.isClaimed lease) (·.release now)

/-- `insert_occurrence`; `constraints` is what the other constraints of the database say of the row. -/
def insertOccurrence (constraints : Except CoreError Unit) (occurrence : LifecycleOccurrenceWrite τ)
    (idempotent : Bool) : Except CoreError (Bool × Outbox τ) := do
  validateId "lifecycle occurrence" occurrence.occurrenceId
  validateId "conversation" occurrence.conversationId
  validateId "branch" occurrence.branchId
  constraints
  if outbox.any fun row => row.id = occurrence.occurrenceId then
    if idempotent then .ok (false, outbox)
    else .error ⟨.storageUnavailable,
      "SQLite operation failed: UNIQUE constraint failed: core_lifecycle_outbox.occurrence_id", true⟩
  else .ok (true, outbox ++ [⟨occurrence, occurrence.occurredAt, 0, .pending⟩])

end Outbox

/-! ## Runs -/

/-- An occurrence between its deliveries, held by one, or done; with their number. -/
inductive Phase
  | idle (attempts : Nat)
  | held (attempts : Nat)
  | done (attempts : Nat)
deriving DecidableEq

def Occurrence.phase (row : Occurrence τ) : Phase :=
  match row.status with
  | .pending => .idle row.deliveryAttempts
  | .claimed _ => .held row.deliveryAttempts
  | .acknowledged _ => .done row.deliveryAttempts

inductive Event (τ : Type)
  | enqueued (write : LifecycleOccurrenceWrite τ)
  | moved (occurrenceId : String) (phase : Phase)

/-- The table, and what was done with it, the latest first. -/
structure State (τ : Type) where
  outbox : Outbox τ
  log : List (Event τ)

inductive Action (τ : Type)
  | insert (constraints : Except CoreError Unit) (occurrence : LifecycleOccurrenceWrite τ) (idempotent : Bool)
  | claim (now leaseUntil : τ) (limit : Nat)
  | acknowledge (occurrenceId : String) (expected : Nat) (acknowledgedAt : τ)
  | retry (occurrenceId : String) (expected : Nat) (availableAt : τ)
  | recover (lease : τ → Bool) (now : τ)

/-- One transaction; a refused one changes nothing. -/
def State.act (s : State τ) : Action τ → State τ
  | .insert constraints occurrence idempotent =>
    match s.outbox.insertOccurrence constraints occurrence idempotent with
    | .ok (true, outbox) => ⟨outbox, .enqueued occurrence :: s.log⟩
    | _ => s
  | .claim now leaseUntil limit =>
    match s.outbox.claimCoreLifecycleOccurrences now leaseUntil limit with
    | .ok (claimed, outbox) => ⟨outbox, (claimed.map fun row => .moved row.id row.phase).reverse ++ s.log⟩
    | .error _ => s
  | .acknowledge occurrenceId expected acknowledgedAt =>
    match s.outbox.acknowledgeCoreLifecycleOccurrence occurrenceId expected acknowledgedAt with
    | .ok outbox => ⟨outbox, .moved occurrenceId (.done expected) :: s.log⟩
    | .error _ => s
  | .retry occurrenceId expected availableAt =>
    match s.outbox.retryCoreLifecycleOccurrenceAfter occurrenceId expected availableAt with
    | .ok outbox => ⟨outbox, .moved occurrenceId (.idle expected) :: s.log⟩
    | .error _ => s
  | .recover lease now =>
    ⟨(s.outbox.recoverLeases lease now).2,
      (s.outbox.filter (·.isClaimed lease)).map (fun row => .moved row.id (.idle row.deliveryAttempts)) ++ s.log⟩

def State.Reachable (s : State τ) : Prop :=
  Relation.ReflTransGen (fun s t : State τ => ∃ action, t = s.act action) ⟨[], []⟩ s

end LorePia.Lifecycle
