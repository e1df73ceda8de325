/-
SharedOS.Kernel.MessageRecipient — the recipients a model may name, and those an envelope takes.

The arguments of a request bound the identifier of a recipient in code points, and the envelope bounds
it in code units. On a text outside the basic plane the two differ, so a recipient that is accepted is
enveloped exactly where its code units are few enough too.
-/
import SharedOS.Core.DelegationChain
import SharedOS.Kernel.MessageTool

namespace SharedOS.Kernel

open SharedOS.Foundation SharedOS.Contracts SharedOS.Core

section

variable [HostPlatform]

/-! ## Envelopes -/

/-- Of a request in a context that is accepted, the envelope takes exactly the recipients that an
address is. -/
theorem messageEnvelopeSchema_request {context : AccessContext} {id : JsString}
    {arguments : MessageRequestArguments} (hcontext : (accessContextSchema context).isSome)
    (hid : (identifierSchema id).isSome)
    (hpayload : jsonSchema arguments.payload = some arguments.payload) :
    (messageEnvelopeSchema (requestEnvelope context id arguments)).map
        (fun envelope => (envelope.receiver, envelope.payload)) =
      arguments.recipient.schema.map fun receiver => (receiver, arguments.payload) := by
  obtain ⟨hactor, hpurpose, htrace, hnow⟩ := accessContextSchema_isSome hcontext
  obtain ⟨actor, hactor⟩ := Option.isSome_iff_exists.mp hactor
  obtain ⟨purpose, hpurpose⟩ := Option.isSome_iff_exists.mp hpurpose
  obtain ⟨traceId, htrace⟩ := Option.isSome_iff_exists.mp htrace
  obtain ⟨now, hnow⟩ := Option.isSome_iff_exists.mp hnow
  obtain ⟨id', hid⟩ := Option.isSome_iff_exists.mp hid
  have hversion : protocolVersionSchema PROTOCOL_VERSION = some PROTOCOL_VERSION := if_pos rfl
  unfold messageEnvelopeSchema requestEnvelope
  simp only [hversion, hid, hactor, hpurpose, hpayload, htrace, hnow, optionalSchema,
    Option.bind_eq_bind, Option.bind_some]
  cases arguments.recipient.schema <;> rfl

/-- The requirement of the call is resolved for an envelope that has the recipient and the payload as
they were accepted. -/
def Enveloped (tool object : ℕ) (context : AccessContext) (call : ToolCall) (id : JsString)
    (arguments : MessageRequestArguments) : Prop :=
  ∃ envelope : FullMessageEnvelope,
    Program.Asks (MessageRequestTool.resolveRequirement tool object context call)
      [⟨.createMessageId context call, Settled.fulfilled id⟩]
      (.resolveMessageCapability context envelope) ∧
    envelope.receiver = arguments.recipient ∧ envelope.payload = arguments.payload

/-- What the resolver is asked, once the id of the message is there. -/
theorem asks_resolver_iff {tool object : ℕ} {context : AccessContext} {call : ToolCall}
    {id : JsString} {arguments : MessageRequestArguments} {envelope : FullMessageEnvelope}
    (hread : messageRequestArgumentsSchema call.arguments = some arguments) :
    Program.Asks (MessageRequestTool.resolveRequirement tool object context call)
        [⟨.createMessageId context call, Settled.fulfilled id⟩]
        (.resolveMessageCapability context envelope) ↔
      messageEnvelopeSchema (requestEnvelope context id arguments) = some envelope := by
  unfold MessageRequestTool.resolveRequirement
  rw [hread]
  constructor
  · intro h
    rcases Program.asks_ask.mp h with ⟨hnil, -⟩ | ⟨x, t, htrace, h⟩
    · cases hnil
    · obtain ⟨rfl, rfl⟩ : x = Settled.fulfilled id ∧ t = [] := by
        cases htrace
        exact ⟨rfl, rfl⟩
      dsimp only [Program.bind] at h
      cases hschema : messageEnvelopeSchema (requestEnvelope context id arguments) with
      | none =>
          rw [hschema] at h
          exact absurd h Program.not_asks_done
      | some parsed =>
          rw [hschema] at h
          rcases Program.asks_ask.mp h with ⟨-, heq⟩ | ⟨_, _, hnil, -⟩
          · cases heq
            rfl
          · cases hnil
  · intro hschema
    refine Program.asks_ask.mpr (.inr ⟨Settled.fulfilled id, [], rfl, ?_⟩)
    dsimp only [Program.bind]
    rw [hschema]
    exact Program.asks_ask.mpr (.inl ⟨rfl, rfl⟩)

/-- An accepted recipient is enveloped exactly where it is short enough in code units. -/
theorem enveloped_iff (tool object : ℕ) (context : AccessContext) (call : ToolCall) (id : JsString)
    {written : Json} {arguments : MessageRequestArguments}
    (hread : messageRequestArgumentsSchema written = some arguments)
    (hcontext : (accessContextSchema context).isSome) (hid : (identifierSchema id).isSome) :
    Enveloped tool object context { call with arguments := arguments.toJson } id arguments ↔
      arguments.recipient.identifier.length ≤ 256 := by
  obtain ⟨hrecipient, hpayload⟩ := messageRequestArgumentsSchema_eq_some hread
  obtain ⟨-, hne, htrim⟩ := recipientIdentifierSchema_eq_some hrecipient
  have henvelope := messageEnvelopeSchema_request hcontext hid hpayload
  have hidentifier := identifierSchema_of_trimmed htrim
  have hreread : messageRequestArgumentsSchema
      { call with arguments := arguments.toJson }.arguments = some arguments :=
    messageRequestArgumentsSchema_idem hread
  constructor
  · rintro ⟨envelope, hasks, -⟩
    rw [asks_resolver_iff hreread] at hasks
    by_contra hlong
    rw [if_neg (fun h => hlong h.2)] at hidentifier
    rw [hasks, Address.schema_eq, hidentifier] at henvelope
    cases henvelope
  · intro hlength
    rw [if_pos ⟨hne, hlength⟩] at hidentifier
    rw [Address.schema_eq, hidentifier, Option.map_some, Option.map_some,
      Address.withIdentifier_identifier] at henvelope
    obtain ⟨envelope, hsome, hparts⟩ := Option.map_eq_some_iff.mp henvelope
    refine ⟨envelope, (asks_resolver_iff hreread).mpr hsome, ?_, ?_⟩
    · exact congrArg Prod.fst hparts
    · exact congrArg Prod.snd hparts

omit [HostPlatform] in
/-- An address without space around its identifier is a recipient. -/
theorem recipientIdentifierSchema_of_address {a : Address} (ha : a.schema.isSome)
    (htrim : trim a.identifier = a.identifier) :
    recipientIdentifierSchema a.identifier = some a.identifier := by
  rw [Address.schema_eq, Option.isSome_map, identifierSchema_of_trimmed htrim] at ha
  split at ha
  · next hlength =>
      have hpoints := codePointCount_le_length a.identifier
      exact if_pos ⟨hlength.1, htrim, by omega⟩
  · cases ha

/-- **An accepted recipient is enveloped exactly where it has at most 256 code units**, and every
address without space around its identifier is accepted as a recipient. -/
theorem accepted_recipient_enveloped_iff :
    (∀ (tool object : ℕ) (context : AccessContext) (call : ToolCall) (id : JsString) (written : Json)
        (arguments : MessageRequestArguments),
      messageRequestArgumentsSchema written = some arguments →
      (accessContextSchema context).isSome → (identifierSchema id).isSome →
      (Enveloped tool object context { call with arguments := arguments.toJson } id arguments ↔
        arguments.recipient.identifier.length ≤ 256)) ∧
    ∀ (address : Address) (payload parsed : Json), address.schema.isSome →
      trim address.identifier = address.identifier → jsonSchema payload = some parsed →
      messageRequestArgumentsSchema (.obj [("recipient", address.toJson), ("payload", payload)]) =
        some { recipient := address, payload := parsed } := by
  constructor
  · intro tool object context call id written arguments hread hcontext hid
    exact enveloped_iff tool object context call id hread hcontext hid
  · intro address payload parsed haddress htrim hpayload
    exact messageRequestArgumentsSchema_obj (recipientIdentifierSchema_of_address haddress htrim)
      hpayload

end

namespace Sample

/-- So many characters outside the basic plane, each of two code units. -/
def astral (count : ℕ) : JsString := (List.replicate count [0xD83D, 0xDE00]).flatten

/-- A request to the agent of this id. -/
def requestNaming (i : JsString) : MessageRequestArguments where
  recipient := .agent i
  payload := .null

/-- A call of the request tool without arguments. -/
def emptyCall : ToolCall where
  id := "c1"
  tool := "messages.request"
  arguments := .obj []
  traceId := "trace"
  requestedAt := "2026-03-01T00:00:00Z"

end Sample

open scoped SharedOS.Foundation.Reference in
open SharedOS.Core.Sample in
/-- 129 such characters are accepted, and their 258 code units are not enveloped. -/
theorem accepted_recipient_refused :
    ¬ ∀ (tool object : ℕ) (context : AccessContext) (call : ToolCall) (id : JsString) (written : Json)
        (arguments : MessageRequestArguments),
      messageRequestArgumentsSchema written = some arguments →
      (accessContextSchema context).isSome → (identifierSchema id).isSome →
      Enveloped tool object context { call with arguments := arguments.toJson } id arguments := by
  intro h
  have haccepted : messageRequestArgumentsSchema (Sample.requestNaming (Sample.astral 129)).toJson =
      some (Sample.requestNaming (Sample.astral 129)) :=
    messageRequestArgumentsSchema_obj (by decide +kernel) rfl
  have hcontext : (accessContextSchema context).isSome := by decide +kernel
  have hid : (identifierSchema "message").isSome := by decide
  have hasks := h 0 0 context Sample.emptyCall "message" _ _ haccepted hcontext hid
  rw [enveloped_iff 0 0 context Sample.emptyCall "message" haccepted hcontext hid] at hasks
  exact absurd hasks (by decide +kernel)

open scoped SharedOS.Foundation.Reference in
open SharedOS.Core.Sample in
theorem accepted_recipient_enveloped_at_limit :
    Enveloped 0 0 context
        { Sample.emptyCall with arguments := (Sample.requestNaming (Sample.astral 128)).toJson }
        "message" (Sample.requestNaming (Sample.astral 128)) ∧
      (messageRequestArgumentsSchema (.obj [("recipient", (Address.agent "tina").toJson),
        ("payload", .null)])).isSome := by
  constructor
  · refine (accepted_recipient_enveloped_iff.1 0 0 context Sample.emptyCall "message"
      (Sample.requestNaming (Sample.astral 128)).toJson _ ?_ ?_ ?_).mpr ?_
    · exact messageRequestArgumentsSchema_obj (by decide +kernel) rfl
    · decide +kernel
    · decide
    · decide +kernel
  · rw [accepted_recipient_enveloped_iff.2 (.agent "tina") .null .null (by decide) (by decide) rfl]
    rfl

end SharedOS.Kernel
