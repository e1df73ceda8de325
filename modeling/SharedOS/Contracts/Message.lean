/-
SharedOS.Contracts.Message — messages, what a model may say of one, and what a delivery came to.

An envelope is made by the kernel: its sender, its context's scope and its instant are the host's.
What a model may say of a message is its recipient and its payload. A request's arguments are JSON
that a model wrote, so their schema reads the JSON itself: the two members and no other, and a
recipient whose identifier stands as it was written.

The two bounds on an identifier are not the same. The arguments are bounded by code points, the
envelope by UTF-16 code units after trimming; what follows from the difference is said where the two
meet (`Kernel.MessageRecipient`).

A delivery is taken (accepted or delivered) or not taken, and one that is not carries a protocol
error. Its metadata, like a tool's, is any JSON object.
-/
import SharedOS.Contracts.Execution

namespace SharedOS.Contracts

open SharedOS.Foundation

/-- The one version of the protocol. -/
def PROTOCOL_VERSION : JsString := "1"

/-! ## The envelope -/

/-- Hop provenance a host may attach. -/
structure MessageProvenance where
  source : JsString
  parentIds : List JsString
  metadata : Option Json

/-- An envelope with all it carries. -/
structure FullMessageEnvelope extends MessageEnvelope where
  version : JsString
  id : JsString
  sender : Address
  payload : Json
  createdAt : JsString
  replyTo : Option JsString
  provenance : Option MessageProvenance

/-- `MessageProvenanceSchema`: at most 64 parents. -/
def messageProvenanceSchema (p : MessageProvenance) : Option MessageProvenance := do
  let source ← identifierSchema p.source
  let parentIds ← arraySchema identifierSchema 0 64 p.parentIds
  let metadata ← optionalSchema jsonObjectSchema p.metadata
  some { source, parentIds, metadata }

/-- `ProtocolVersionSchema`. -/
def protocolVersionSchema (s : JsString) : Option JsString :=
  if s = PROTOCOL_VERSION then some s else none

/-- `MessageEnvelopeSchema`. -/
def messageEnvelopeSchema [HostPlatform] (m : FullMessageEnvelope) :
    Option FullMessageEnvelope := do
  let version ← protocolVersionSchema m.version
  let id ← identifierSchema m.id
  let sender ← m.sender.schema
  let receiver ← m.receiver.schema
  let purpose ← trimmedString 512 m.purpose
  let payload ← jsonSchema m.payload
  let traceId ← identifierSchema m.traceId
  let createdAt ← timestampSchema m.createdAt
  let replyTo ← optionalSchema identifierSchema m.replyTo
  let provenance ← optionalSchema messageProvenanceSchema m.provenance
  some { version, id, sender, receiver, purpose, payload, traceId, createdAt, replyTo, provenance }

/-! ## The arguments of a request -/

/-- The members of a JSON object under a key. -/
def jsonMember (entries : List (JsString × Json)) (key : JsString) : Option Json :=
  (entries.find? fun entry => entry.1 = key).map Prod.snd

/-- The text of a JSON value that is one. -/
def jsonText : Json → Option JsString
  | .str s => some s
  | _ => none

/-- `.strict()`: the object has none but these keys. -/
def hasOnlyKeys (keys : List JsString) (entries : List (JsString × Json)) : Bool :=
  entries.all fun entry => entry.1 ∈ keys

/-- `[...value].length`: a surrogate pair is one code point. -/
def codePointCount : JsString → ℕ
  | [] => 0
  | [_] => 1
  | u :: v :: rest =>
    if isHighSurrogate u && isLowSurrogate v then codePointCount rest + 1
    else codePointCount (v :: rest) + 1

/-- `MessageRequestRecipientIdentifierSchema`. Nothing is trimmed: what trimming would change is
refused. -/
def recipientIdentifierSchema (s : JsString) : Option JsString :=
  if 1 ≤ s.length ∧ trim s = s ∧ codePointCount s ≤ 256 then some s else none

/-- An address of the kind, and the member its identifier is in. -/
def addressOfKind (kind : JsString) : Option ((JsString → Address) × JsString) :=
  if kind = "human" then some (.human, "userId")
  else if kind = "agent" then some (.agent, "agentId")
  else if kind = "group" then some (.group, "conversationId")
  else if kind = "service" then some (.service, "serviceId")
  else none

/-- `MessageRequestRecipientAddressSchema`. -/
def recipientAddressSchema : Json → Option Address
  | .obj entries => do
    let kind ← (jsonMember entries "kind").bind jsonText
    let (address, idKey) ← addressOfKind kind
    let written ← (jsonMember entries idKey).bind jsonText
    let id ← recipientIdentifierSchema written
    if hasOnlyKeys ["kind", idKey] entries then some (address id) else none
  | _ => none

/-- What a model may say of a message. -/
structure MessageRequestArguments where
  recipient : Address
  payload : Json

/-- The arguments as the object a model writes. -/
def MessageRequestArguments.toJson (a : MessageRequestArguments) : Json :=
  .obj [("recipient", a.recipient.toJson), ("payload", a.payload)]

/-- `MessageRequestArgumentsSchema`. -/
def messageRequestArgumentsSchema : Json → Option MessageRequestArguments
  | .obj entries => do
    let recipient ← (jsonMember entries "recipient").bind recipientAddressSchema
    let payload ← (jsonMember entries "payload").bind jsonSchema
    if hasOnlyKeys ["recipient", "payload"] entries then some { recipient, payload } else none
  | _ => none

/-! ## What is accepted of a recipient -/

theorem codePointCount_le_length (s : JsString) : codePointCount s ≤ s.length := by
  fun_induction codePointCount s with
  | case1 => simp
  | case2 u => simp
  | case3 u v rest _ ih =>
      simp only [List.length_cons]
      omega
  | case4 u v rest _ ih =>
      simp only [List.length_cons] at ih ⊢
      omega

/-- An identifier that trimming leaves alone is its own parse, or is refused for its length. -/
theorem identifierSchema_of_trimmed {s : JsString} (h : trim s = s) :
    identifierSchema s = if 1 ≤ s.length ∧ s.length ≤ 256 then some s else none := by
  simp [identifierSchema, trimmedString, h]

theorem recipientIdentifierSchema_eq_some {s t : JsString}
    (h : recipientIdentifierSchema s = some t) : t = s ∧ 1 ≤ s.length ∧ trim s = s := by
  unfold recipientIdentifierSchema at h
  split at h
  · next hs =>
      cases h
      exact ⟨rfl, hs.1, hs.2.1⟩
  · cases h

/-- The address with another identifier. -/
def Address.withIdentifier (a : Address) (i : JsString) : Address :=
  match a with
  | .human _ => .human i
  | .agent _ => .agent i
  | .group _ => .group i
  | .service _ => .service i

theorem Address.withIdentifier_identifier (a : Address) : a.withIdentifier a.identifier = a := by
  cases a <;> rfl

/-- Whatever its kind, an address is read through its identifier. -/
theorem Address.schema_eq (a : Address) :
    a.schema = (identifierSchema a.identifier).map a.withIdentifier := by
  cases a <;> rfl

/-- What the kind of a recipient names, by the kind it names. -/
theorem addressOfKind_eq_some {kind idKey : JsString} {address : JsString → Address}
    (h : addressOfKind kind = some (address, idKey)) (i : JsString) :
    (address i).kind = kind ∧ (address i).idKey = idKey ∧ (address i).identifier = i := by
  unfold addressOfKind at h
  split_ifs at h with hhuman hagent hgroup hservice
  · cases h
    exact ⟨hhuman.symm, rfl, rfl⟩
  · cases h
    exact ⟨hagent.symm, rfl, rfl⟩
  · cases h
    exact ⟨hgroup.symm, rfl, rfl⟩
  · cases h
    exact ⟨hservice.symm, rfl, rfl⟩

theorem addressOfKind_kind (a : Address) : addressOfKind a.kind = some (a.withIdentifier, a.idKey) := by
  cases a <;> rfl

/-- An accepted recipient has an identifier of the arguments. -/
theorem recipientAddressSchema_identifier {written : Json} {a : Address}
    (h : recipientAddressSchema written = some a) :
    recipientIdentifierSchema a.identifier = some a.identifier := by
  cases written with
  | obj entries =>
      unfold recipientAddressSchema at h
      simp only [Option.bind_eq_bind, Option.bind_eq_some_iff] at h
      obtain ⟨kind, -, ⟨address, idKey⟩, hkind, text, -, i, hi, h⟩ := h
      split at h
      · cases h
        obtain ⟨rfl, -⟩ := recipientIdentifierSchema_eq_some hi
        rw [(addressOfKind_eq_some hkind i).2.2]
        exact hi
      · cases h
  | null | bool | num | str | arr => cases h

/-- The address of an accepted identifier is accepted as it is written out. -/
theorem recipientAddressSchema_toJson {a : Address}
    (h : recipientIdentifierSchema a.identifier = some a.identifier) :
    recipientAddressSchema a.toJson = some a := by
  have hkey : ¬ ("kind" : JsString) = a.idKey := fun heq => a.idKey_ne_kind heq.symm
  have hmember : jsonMember [("kind", .str a.kind), (a.idKey, .str a.identifier)] a.idKey =
      some (.str a.identifier) := by
    simp [jsonMember, hkey]
  have hkinded : jsonMember [("kind", .str a.kind), (a.idKey, .str a.identifier)] "kind" =
      some (.str a.kind) := by
    simp [jsonMember]
  have honly : hasOnlyKeys ["kind", a.idKey]
      [("kind", .str a.kind), (a.idKey, .str a.identifier)] = true := by
    simp [hasOnlyKeys]
  unfold Address.toJson recipientAddressSchema
  simp only [hkinded, Option.bind_some, jsonText, addressOfKind_kind, Option.bind_eq_bind, hmember, h,
    honly, if_true, Address.withIdentifier_identifier]

/-- Arguments whose recipient and payload are their own parses are read as they are written out. -/
theorem messageRequestArgumentsSchema_obj {a : Address} {payload parsed : Json}
    (ha : recipientIdentifierSchema a.identifier = some a.identifier)
    (hpayload : jsonSchema payload = some parsed) :
    messageRequestArgumentsSchema (.obj [("recipient", a.toJson), ("payload", payload)]) =
      some { recipient := a, payload := parsed } := by
  have hrecipient : jsonMember [("recipient", a.toJson), ("payload", payload)] "recipient" =
      some a.toJson := by
    simp [jsonMember]
  have hmember : jsonMember [("recipient", a.toJson), ("payload", payload)] "payload" =
      some payload := by
    have hne : ¬ ("recipient" : JsString) = "payload" := by decide
    simp [jsonMember, hne]
  have honly : hasOnlyKeys ["recipient", "payload"]
      [("recipient", a.toJson), ("payload", payload)] = true := by
    simp [hasOnlyKeys]
  unfold messageRequestArgumentsSchema
  simp only [hrecipient, hmember, Option.bind_some, recipientAddressSchema_toJson ha, hpayload,
    Option.bind_eq_bind, honly, if_true]

/-- What is accepted of a request. -/
theorem messageRequestArgumentsSchema_eq_some {written : Json} {arguments : MessageRequestArguments}
    (h : messageRequestArgumentsSchema written = some arguments) :
    recipientIdentifierSchema arguments.recipient.identifier = some arguments.recipient.identifier ∧
      jsonSchema arguments.payload = some arguments.payload := by
  cases written with
  | obj entries =>
      unfold messageRequestArgumentsSchema at h
      simp only [Option.bind_eq_bind, Option.bind_eq_some_iff] at h
      obtain ⟨recipient, ⟨_, -, hrecipient⟩, payload, ⟨_, -, hpayload⟩, h⟩ := h
      split at h
      · cases h
        exact ⟨recipientAddressSchema_identifier hrecipient, jsonSchema_idem hpayload⟩
      · cases h
  | null | bool | num | str | arr => cases h

/-- Accepted arguments are their own parse. -/
theorem messageRequestArgumentsSchema_idem {written : Json} {arguments : MessageRequestArguments}
    (h : messageRequestArgumentsSchema written = some arguments) :
    messageRequestArgumentsSchema arguments.toJson = some arguments := by
  obtain ⟨hrecipient, hpayload⟩ := messageRequestArgumentsSchema_eq_some h
  exact messageRequestArgumentsSchema_obj hrecipient hpayload

/-- A context that is accepted has parties and a purpose an envelope takes. -/
theorem accessContextSchema_isSome [HostPlatform] {c : AccessContext}
    (h : (accessContextSchema c).isSome) :
    c.actor.schema.isSome ∧ (trimmedString 512 c.purpose).isSome ∧
      (identifierSchema c.traceId).isSome ∧ (timestampSchema c.now).isSome := by
  obtain ⟨parsed, h⟩ := Option.isSome_iff_exists.mp h
  unfold accessContextSchema at h
  simp only [Option.bind_eq_bind, Option.bind_eq_some_iff] at h
  obtain ⟨_, -, _, hactor, _, -, _, -, _, hpurpose, _, htrace, _, -, _, -, _, hnow, -⟩ := h
  exact ⟨by simp [hactor], by simp [hpurpose], by simp [htrace], by simp [hnow]⟩

/-! ## The outcome of a delivery -/

/-- What a delivery came to. -/
inductive DeliveryOutcome where
  | accepted
  | delivered
  | denied (error : ProtocolError)
  | failed (error : ProtocolError)

/-- The transport's answer to one envelope. -/
structure MessageDeliveryResult where
  messageId : JsString
  timestamp : JsString
  outcome : DeliveryOutcome
  metadata : Option Json

/-- The schema of an outcome. The two that are not taken carry an error. -/
def deliveryOutcomeSchema : DeliveryOutcome → Option DeliveryOutcome
  | .accepted => some .accepted
  | .delivered => some .delivered
  | .denied error => (protocolErrorSchema error).map .denied
  | .failed error => (protocolErrorSchema error).map .failed

/-- `MessageDeliveryResultSchema`. -/
def messageDeliveryResultSchema [HostPlatform] (r : MessageDeliveryResult) :
    Option MessageDeliveryResult := do
  let messageId ← identifierSchema r.messageId
  let timestamp ← timestampSchema r.timestamp
  let outcome ← deliveryOutcomeSchema r.outcome
  let metadata ← optionalSchema jsonObjectSchema r.metadata
  some { messageId, timestamp, outcome, metadata }

/-- The transport took the message. -/
def MessageDeliveryResult.taken (delivery : MessageDeliveryResult) : Bool :=
  match delivery.outcome with
  | .accepted | .delivered => true
  | .denied _ | .failed _ => false

end SharedOS.Contracts
