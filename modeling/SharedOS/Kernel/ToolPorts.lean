/-
SharedOS.Kernel.ToolPorts — what the built-in tools ask, and what they keep beside a call.

The message tool and the resource tools work in two hooks that communicate through a `WeakMap` keyed
on the call object. So a call object has an identity of its own, which its contents do not have, and
the maps are part of the state that concurrent invocations share. What the kernel asks of others
stays as it is, under `kernel`.
-/
import SharedOS.Contracts.Message
import SharedOS.Contracts.Resource
import SharedOS.Foundation.Ownership
import SharedOS.Kernel.Ports

namespace SharedOS.Kernel

open SharedOS.Foundation SharedOS.Contracts

/-- What the message tool carries from one hook to the other. -/
structure PreparedRequest where
  callId : JsString
  envelope : FullMessageEnvelope

/-- The arguments of a resource tool, once parsed. -/
structure ParsedResourceCall where
  path : List JsString
  input : Option Json

/-- What the delivery of an authorized message came to. -/
inductive DeliveryAnswer where
  | settled (delivery : MessageDeliveryResult)
  | threw
  | threwAuditUnavailable

/-- What a first-party tool asks: what the kernel asks, its own maps, its ports. -/
inductive ToolOp where
  | kernel (o : KernelOp)
  /-- A call object is built, with an identity no other has. -/
  | newCall
  | preparedGet (tool object : ℕ)
  | preparedSet (tool object : ℕ) (held : PreparedRequest)
  | parsedGet (tool object : ℕ)
  | parsedSet (tool object : ℕ) (parsed : ParsedResourceCall)
  | createMessageId (context : AccessContext) (call : ToolCall)
  | resolveMessageCapability (context : AccessContext) (envelope : FullMessageEnvelope)
  | deliverAuthorizedMessage (context : AccessContext) (envelope : FullMessageEnvelope)
      (call : ToolCall)
  | resolveReply (context : AccessContext) (request : FullMessageEnvelope)
      (delivery : MessageDeliveryResult)
  | invokeProvider (tool : ℕ) (operation : ResourceOperation)

/-- The answers. A read of a map answers what it holds. -/
abbrev ToolOp.Answer : ToolOp → Type
  | .kernel o => o.Answer
  | .newCall => ℕ
  | .preparedGet .. => Option PreparedRequest
  | .preparedSet .. => Unit
  | .parsedGet .. => Option ParsedResourceCall
  | .parsedSet .. => Unit
  | .createMessageId .. => Settled JsString
  | .resolveMessageCapability .. => Settled (Option CapabilityRequirement)
  | .deliverAuthorizedMessage .. => DeliveryAnswer
  | .resolveReply .. => Settled (Option FullMessageEnvelope)
  | .invokeProvider .. => PortAnswer ResourceResult

/-- The programs of the first-party tools. -/
abbrev ToolM := Program ToolOp ToolOp.Answer KernelError

/-- One question of a tool with its answer. -/
abbrev ToolEvent := Event ToolOp.Answer

/-- One question, answered. -/
def query (o : ToolOp) : ToolM o.Answer := Program.perform o

/-! ## The maps -/

/-- Every tool's own map, under the tool, from call objects. -/
structure ToolMemory where
  nextCall : ℕ
  prepared : ℕ → ℕ → Option PreparedRequest
  parsedCalls : ℕ → ℕ → Option ParsedResourceCall

namespace ToolMemory

/-- Before any call. -/
def empty : ToolMemory where
  nextCall := 0
  prepared _ _ := none
  parsedCalls _ _ := none

/-- `map.set(key, entry)`. -/
def put {ν : Type} (map : ℕ → ℕ → Option ν) (tool object : ℕ) (entry : ν) : ℕ → ℕ → Option ν :=
  fun t o => if t = tool ∧ o = object then some entry else map t o

/-- The operations that are the program's own. -/
def serve : Server ToolMemory ToolOp.Answer
  | memory, .newCall => some ({ memory with nextCall := memory.nextCall + 1 }, memory.nextCall)
  | memory, .preparedGet tool object => some (memory, memory.prepared tool object)
  | memory, .preparedSet tool object held =>
    some ({ memory with prepared := put memory.prepared tool object held }, ())
  | memory, .parsedGet tool object => some (memory, memory.parsedCalls tool object)
  | memory, .parsedSet tool object parsed =>
    some ({ memory with parsedCalls := put memory.parsedCalls tool object parsed }, ())
  | _, _ => none

theorem put_eq_some {ν : Type} {map : ℕ → ℕ → Option ν} {tool object t o : ℕ} {entry v : ν}
    (h : put map tool object entry t o = some v) :
    map t o = some v ∨ (tool = t ∧ object = o ∧ entry = v) := by
  unfold put at h
  split at h
  · next hkey => exact .inr ⟨hkey.1.symm, hkey.2.symm, Option.some.inj h⟩
  · exact .inl h

end ToolMemory

/-! ## Whose entry it is -/

/-- An entry of one of the maps, by tool and call object. -/
inductive ToolCell where
  | prepared (tool object : ℕ)
  | parsed (tool object : ℕ)

/-- What a cell of a tool's maps holds. -/
inductive HeldState where
  | prepared (held : PreparedRequest)
  | parsed (parsed : ParsedResourceCall)

/-- The call object a cell is keyed on. -/
def ToolCell.object : ToolCell → ℕ
  | .prepared _ object | .parsed _ object => object

/-- The maps as cells, each under the call object it is keyed on. -/
def toolCells : Cells ToolMemory ToolCell HeldState ToolOp.Answer where
  holds memory
    | .prepared tool object => (memory.prepared tool object).map .prepared
    | .parsed tool object => (memory.parsedCalls tool object).map .parsed
  nextReference := ToolMemory.nextCall
  owner := ToolCell.object
  draws
    | ⟨.newCall, object⟩ => some object
    | _ => none
  reads
    | ⟨.preparedGet tool object, held⟩ => held.map fun held => (.prepared tool object, .prepared held)
    | ⟨.parsedGet tool object, parsed⟩ =>
      parsed.map fun parsed => (.parsed tool object, .parsed parsed)
    | _ => none
  writes
    | ⟨.preparedSet tool object held, _⟩ => some (.prepared tool object, .prepared held)
    | ⟨.parsedSet tool object parsed, _⟩ => some (.parsed tool object, .parsed parsed)
    | _ => none

theorem toolCells_keptBy : toolCells.KeptBy ToolMemory.serve := by
  constructor
  · intro memory o memory' x r hserve hdraws
    cases o with
    | newCall =>
        cases hserve
        cases hdraws
        exact ⟨rfl, Nat.lt_succ_self _⟩
    | _ => cases hdraws
  · intro memory o memory' x hserve
    cases o with
    | newCall =>
        cases hserve
        exact Nat.le_succ _
    | preparedGet | preparedSet | parsedGet | parsedSet =>
        cases hserve
        exact le_rfl
    | _ => cases hserve
  · intro memory o memory' x key v hserve hholds
    cases o with
    | newCall | preparedGet | parsedGet =>
        cases hserve
        exact .inl hholds
    | preparedSet tool object held =>
        cases hserve
        cases key with
        | parsed t o => exact .inl hholds
        | prepared t o =>
            obtain ⟨v, hput, rfl⟩ := Option.map_eq_some_iff.mp hholds
            rcases ToolMemory.put_eq_some hput with hheld | ⟨rfl, rfl, rfl⟩
            · exact .inl (Option.map_eq_some_iff.mpr ⟨v, hheld, rfl⟩)
            · exact .inr rfl
    | parsedSet tool object parsed =>
        cases hserve
        cases key with
        | prepared t o => exact .inl hholds
        | parsed t o =>
            obtain ⟨v, hput, rfl⟩ := Option.map_eq_some_iff.mp hholds
            rcases ToolMemory.put_eq_some hput with hheld | ⟨rfl, rfl, rfl⟩
            · exact .inl (Option.map_eq_some_iff.mpr ⟨v, hheld, rfl⟩)
            · exact .inr rfl
    | _ => cases hserve
  · intro memory o memory' x key v hserve hreads
    cases o with
    | preparedGet tool object =>
        cases hserve
        obtain ⟨held, hheld, heq⟩ := Option.map_eq_some_iff.mp hreads
        cases heq
        exact Option.map_eq_some_iff.mpr ⟨held, hheld, rfl⟩
    | parsedGet tool object =>
        cases hserve
        obtain ⟨parsed, hparsed, heq⟩ := Option.map_eq_some_iff.mp hreads
        cases heq
        exact Option.map_eq_some_iff.mpr ⟨parsed, hparsed, rfl⟩
    | _ => cases hreads
  · intro memory o hserve x
    cases o with
    | newCall | preparedGet | preparedSet | parsedGet | parsedSet => cases hserve
    | _ => exact ⟨rfl, rfl, rfl⟩

/-- What fills an entry of the message tool. -/
theorem writes_prepared {e : ToolEvent} {tool object : ℕ} {held : PreparedRequest}
    (h : toolCells.writes e = some (.prepared tool object, .prepared held)) :
    e = ⟨.preparedSet tool object held, ()⟩ := by
  obtain ⟨o, x⟩ := e
  cases o with
  | preparedSet tool' object' held' =>
      cases h
      rfl
  | _ => cases h

/-- What fills an entry of a resource tool. -/
theorem writes_parsed {e : ToolEvent} {tool object : ℕ} {parsed : ParsedResourceCall}
    (h : toolCells.writes e = some (.parsed tool object, .parsed parsed)) :
    e = ⟨.parsedSet tool object parsed, ()⟩ := by
  obtain ⟨o, x⟩ := e
  cases o with
  | parsedSet tool' object' parsed' =>
      cases h
      rfl
  | _ => cases h

end SharedOS.Kernel
