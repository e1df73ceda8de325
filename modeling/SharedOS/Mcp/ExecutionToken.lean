/-
SharedOS.Mcp.ExecutionToken — the token that identifies a broker session.

A token is the base64url text of the canonical claims, a full stop, and the base64url text of the
HMAC of what stands before it. Web Crypto computes the HMAC and is a parameter: bytes of a key and
of a message in, bytes out, or a refusal (it imports no empty key). The verifier signs the first
segment exactly as it received it, so nothing depends on how claims are written, and the claims are
read only once the signature holds.

What the verifier accepts is one conjunction (`verifyExecutionToken_valid_iff`), and the minter
meets it because three conversions are undone one by one: base64url, UTF-8 and canonical JSON.

The module goes up along these conversions. Base64 over bytes is the library's (`Foundation.Base64`);
its url form changes two characters and drops the padding, and is undone by changing them back and
padding to a multiple of four. The claims are an object of five texts, each bounded, one a hash and
one an instant with an offset; the object's schema refuses any other member.

An expectation compares claims with what the session knows, after the token is known to be unexpired.
An expected member that is `undefined` asks for nothing.
-/
import Mathlib.Data.LawfulXor.Basic
import SharedOS.Contracts.Message
import SharedOS.Core.Internal
import SharedOS.Foundation.JsonText
import SharedOS.Foundation.Utf8
import SharedOS.Mcp.Protocol

namespace SharedOS.Mcp

open SharedOS.Foundation SharedOS.Foundation.Base64 SharedOS.Foundation.Utf8 SharedOS.Contracts
open SharedOS.Core

/-! ## Base64url -/

/-- What stands between the two segments. -/
def fullStop : CodeUnit := 0x2E

/-- `value.replace(/old/gu, new)` on single code units. -/
def replaceUnit (old new u : CodeUnit) : CodeUnit := if u = old then new else u

/-- `String.prototype.padEnd`. -/
def padEnd (s : JsString) (length : ℕ) (u : CodeUnit) : JsString :=
  s ++ List.replicate (length - s.length) u

/-- `base64UrlEncode`. -/
def base64UrlEncode (bytes : List Byte) : JsString :=
  (((btoa bytes).map (replaceUnit 0x2B 0x2D)).map (replaceUnit 0x2F 0x5F)).rdropWhile
    fun u => u = equalsSign

/-- `base64UrlDecode`, which throws where `atob` does. -/
def base64UrlDecode (value : JsString) : Option (List Byte) :=
  let padded := (value.map (replaceUnit 0x2D 0x2B)).map (replaceUnit 0x5F 0x2F)
  atob (padEnd padded ((padded.length + 3) / 4 * 4) equalsSign)

/-- The character of six bits in the alphabet of the URL. -/
def urlDigit (s : Sextet) : CodeUnit := replaceUnit 0x2F 0x5F (replaceUnit 0x2B 0x2D (digit s))

theorem urlDigit_back (s : Sextet) :
    replaceUnit 0x5F 0x2F (replaceUnit 0x2D 0x2B (urlDigit s)) = digit s := by
  revert s
  decide

theorem urlDigit_ne_equalsSign (s : Sextet) : urlDigit s ≠ equalsSign := by
  revert s
  decide

theorem urlDigit_ne_fullStop (s : Sextet) : urlDigit s ≠ fullStop := by
  revert s
  decide

theorem rdropWhile_replicate {α : Type} {p : α → Bool} {a : α} (ha : p a = true) (xs : List α)
    (n : ℕ) : (xs ++ List.replicate n a).rdropWhile p = xs.rdropWhile p := by
  induction n with
  | zero => rw [List.replicate_zero, List.append_nil]
  | succ n ih =>
      rw [List.replicate_succ', ← List.append_assoc, List.rdropWhile_concat_pos p _ a ha, ih]

/-- **The encoder writes the digits and nothing else**: the marks `btoa` adds are taken off. -/
theorem base64UrlEncode_eq (bytes : List Byte) :
    base64UrlEncode bytes = (sextets bytes).map urlDigit := by
  have hdigits : ((sextets bytes).map digit).map (replaceUnit 0x2F 0x5F ∘ replaceUnit 0x2B 0x2D) =
      (sextets bytes).map urlDigit := by
    rw [List.map_map]
    rfl
  have hmark : (replaceUnit 0x2F 0x5F ∘ replaceUnit 0x2B 0x2D) equalsSign = equalsSign := by decide
  unfold base64UrlEncode btoa padding
  rw [List.map_map, List.map_append, hdigits, List.map_replicate, hmark,
    rdropWhile_replicate (by decide), List.rdropWhile_eq_self_iff]
  intro hne
  have hlast := List.getLast_mem hne
  obtain ⟨s, -, hs⟩ := List.mem_map.mp hlast
  rw [← hs, decide_eq_true_eq]
  exact urlDigit_ne_equalsSign s

/-- **Any bytes survive base64url.** -/
theorem base64UrlDecode_encode (bytes : List Byte) :
    base64UrlDecode (base64UrlEncode bytes) = some bytes := by
  have hback : (((sextets bytes).map urlDigit).map (replaceUnit 0x2D 0x2B)).map
      (replaceUnit 0x5F 0x2F) = (sextets bytes).map digit := by
    rw [List.map_map, List.map_map]
    exact List.map_congr_left fun s _ => urlDigit_back s
  have hmarks : padEnd ((sextets bytes).map digit)
      ((((sextets bytes).map digit).length + 3) / 4 * 4) equalsSign = btoa bytes := by
    unfold padEnd btoa padding
    dsimp only
    congr 2
    omega
  unfold base64UrlDecode
  rw [base64UrlEncode_eq]
  dsimp only
  rw [hback, hmarks, atob_btoa]

theorem fullStop_not_mem_encode (bytes : List Byte) : fullStop ∉ base64UrlEncode bytes := by
  rw [base64UrlEncode_eq]
  intro hmem
  obtain ⟨s, -, hs⟩ := List.mem_map.mp hmem
  exact urlDigit_ne_fullStop s hs

/-! ## Comparing strings -/

/-- `timingSafeEqual`: the differences of all code units are collected before any is looked at. -/
def timingSafeEqual (left right : JsString) : Bool :=
  if left.length ≠ right.length then false
  else (left.zip right).foldl (fun difference p => difference ||| (p.1.val ^^^ p.2.val)) 0 = 0

/-- Nothing is collected exactly when every pair agrees. -/
theorem collected_eq_zero_iff (pairs : List (CodeUnit × CodeUnit)) (start : ℕ) :
    pairs.foldl (fun difference p => difference ||| (p.1.val ^^^ p.2.val)) start = 0 ↔
      start = 0 ∧ ∀ p ∈ pairs, p.1 = p.2 := by
  induction pairs generalizing start with
  | nil => simp
  | cons p rest ih =>
      rw [List.foldl_cons, ih, Nat.or_eq_zero_iff, xor_eq_zero_iff, List.forall_mem_cons,
        Fin.ext_iff, and_assoc]

/-- **The comparison is equality.** -/
theorem timingSafeEqual_iff {left right : JsString} :
    timingSafeEqual left right = true ↔ left = right := by
  unfold timingSafeEqual
  split
  · next hlength => exact iff_of_false Bool.false_ne_true fun h => hlength (congrArg _ h)
  · next hlength =>
      rw [decide_eq_true_eq, collected_eq_zero_iff, ← List.forall₂_eq_eq_eq,
        List.forall₂_iff_zip]
      have hsame := not_not.mp hlength
      exact ⟨fun h => ⟨hsame, fun {a b} hab => h.2 (a, b) hab⟩, fun h => ⟨rfl, fun p hp => h.2 hp⟩⟩

/-! ## Claims -/

/-- What a token asserts. -/
structure ExecutionTokenClaims where
  executionId : JsString
  namespaceId : JsString
  actor : JsString
  catalogHash : JsString
  expiresAt : JsString
  deriving DecidableEq

namespace ExecutionTokenClaims

/-- The claims, under their names, in the order they are declared. -/
def entries (c : ExecutionTokenClaims) : List (JsString × JsString) :=
  [("executionId", c.executionId), ("namespaceId", c.namespaceId), ("actor", c.actor),
    ("catalogHash", c.catalogHash), ("expiresAt", c.expiresAt)]

/-- `claims[key]`. -/
def member (c : ExecutionTokenClaims) (key : JsString) : Option JsString := c.entries.lookup key

/-- The claims as an object. -/
def toJson (c : ExecutionTokenClaims) : Json := .obj (c.entries.map fun e => (e.1, .str e.2))

end ExecutionTokenClaims

/-- The names of the claims. -/
def claimKeys : List JsString :=
  ["executionId", "namespaceId", "actor", "catalogHash", "expiresAt"]

/-- `z.string().min(1).max(limit)`. -/
def boundedString (limit : ℕ) : Json → Option JsString
  | .str s => if 1 ≤ s.length ∧ s.length ≤ limit then some s else none
  | _ => none

/-- The hash of a catalogue, as a claim. -/
def catalogHashSchema : Json → Option JsString
  | .str s => if isContentHash s then some s else none
  | _ => none

/-- `z.string().datetime({ offset: true })`. -/
def expirySchema [HostPlatform] : Json → Option JsString
  | .str s => timestampSchema s
  | _ => none

/-- `ExecutionTokenClaimsSchema`. -/
def executionTokenClaimsSchema [HostPlatform] : Json → Option ExecutionTokenClaims
  | .obj entries => do
    let executionId ← (field "executionId" (.obj entries)).bind (boundedString 256)
    let namespaceId ← (field "namespaceId" (.obj entries)).bind (boundedString 256)
    let actor ← (field "actor" (.obj entries)).bind (boundedString 512)
    let catalogHash ← (field "catalogHash" (.obj entries)).bind catalogHashSchema
    let expiresAt ← (field "expiresAt" (.obj entries)).bind expirySchema
    if hasOnlyKeys claimKeys entries then
      some { executionId, namespaceId, actor, catalogHash, expiresAt }
    else none
  | _ => none

/-- Claims the schema accepts. -/
structure ExecutionTokenClaims.Valid [HostPlatform] (c : ExecutionTokenClaims) : Prop where
  executionId : boundedString 256 (.str c.executionId) = some c.executionId
  namespaceId : boundedString 256 (.str c.namespaceId) = some c.namespaceId
  actor : boundedString 512 (.str c.actor) = some c.actor
  catalogHash : catalogHashSchema (.str c.catalogHash) = some c.catalogHash
  expiresAt : expirySchema (.str c.expiresAt) = some c.expiresAt

/-! ## What the schema reads -/

/-- Of a schema that reads texts. -/
def ReadsText (schema : Json → Option JsString) : Prop := ∀ v s, schema v = some s → v = .str s

theorem readsText_boundedString (limit : ℕ) : ReadsText (boundedString limit) := by
  intro v s h
  unfold boundedString at h
  split at h
  · split_ifs at h
    rw [Option.some.inj h]
  · cases h

theorem readsText_catalogHashSchema : ReadsText catalogHashSchema := by
  intro v s h
  unfold catalogHashSchema at h
  split at h
  · split_ifs at h
    rw [Option.some.inj h]
  · cases h

theorem readsText_expirySchema [HostPlatform] : ReadsText expirySchema := by
  intro v s h
  unfold expirySchema timestampSchema at h
  split at h
  · split_ifs at h
    rw [Option.some.inj h]
  · cases h

/-- A member is read as the text it is. -/
theorem ReadsText.member_eq_some_iff {schema : Json → Option JsString} (hschema : ReadsText schema)
    {key s : JsString} {entries : List (JsString × Json)} :
    (field key (.obj entries)).bind schema = some s ↔
      entries.lookup key = some (.str s) ∧ schema (.str s) = some s := by
  rw [Option.bind_eq_some_iff]
  constructor
  · rintro ⟨v, hv, hs⟩
    obtain rfl := hschema v s hs
    exact ⟨hv, hs⟩
  · rintro ⟨hv, hs⟩
    exact ⟨.str s, hv, hs⟩

namespace ExecutionTokenClaims

theorem map_fst_entries (c : ExecutionTokenClaims) : c.entries.map Prod.fst = claimKeys := rfl

theorem member_eq_none {c : ExecutionTokenClaims} {key : JsString} (h : key ∉ claimKeys) :
    c.member key = none := by
  rw [member, List.lookup_eq_none_iff]
  intro e he
  rw [bne_iff_ne]
  rintro rfl
  exact h (c.map_fst_entries ▸ List.mem_map_of_mem he)

/-- The members are the claims. -/
theorem eq_of_members {a b : ExecutionTokenClaims} (h : ∀ key, a.member key = b.member key) :
    a = b := by
  have h1 : a.executionId = b.executionId := Option.some.inj (h "executionId")
  have h2 : a.namespaceId = b.namespaceId := Option.some.inj (h "namespaceId")
  have h3 : a.actor = b.actor := Option.some.inj (h "actor")
  have h4 : a.catalogHash = b.catalogHash := Option.some.inj (h "catalogHash")
  have h5 : a.expiresAt = b.expiresAt := Option.some.inj (h "expiresAt")
  cases a
  cases b
  simp only [ExecutionTokenClaims.mk.injEq]
  exact ⟨h1, h2, h3, h4, h5⟩

end ExecutionTokenClaims

/-- **What the schema accepts**: an object with these members and no others, each as its own schema
wants it. -/
theorem executionTokenClaimsSchema_eq_some_iff [HostPlatform] {v : Json}
    {c : ExecutionTokenClaims} :
    executionTokenClaimsSchema v = some c ↔
      c.Valid ∧ ∃ entries, v = .obj entries ∧
        ∀ key, entries.lookup key = (c.member key).map .str := by
  constructor
  · intro h
    cases v with
    | obj entries =>
        simp only [executionTokenClaimsSchema, Option.bind_eq_bind] at h
        obtain ⟨executionId, h1, h⟩ := Option.bind_eq_some_iff.mp h
        obtain ⟨namespaceId, h2, h⟩ := Option.bind_eq_some_iff.mp h
        obtain ⟨actor, h3, h⟩ := Option.bind_eq_some_iff.mp h
        obtain ⟨catalogHash, h4, h⟩ := Option.bind_eq_some_iff.mp h
        obtain ⟨expiresAt, h5, h⟩ := Option.bind_eq_some_iff.mp h
        split_ifs at h with honly
        obtain rfl := Option.some.inj h
        obtain ⟨hid, hidValid⟩ := (readsText_boundedString 256).member_eq_some_iff.mp h1
        obtain ⟨hnamespace, hnamespaceValid⟩ := (readsText_boundedString 256).member_eq_some_iff.mp h2
        obtain ⟨hactor, hactorValid⟩ := (readsText_boundedString 512).member_eq_some_iff.mp h3
        obtain ⟨hhash, hhashValid⟩ := readsText_catalogHashSchema.member_eq_some_iff.mp h4
        obtain ⟨hexpiry, hexpiryValid⟩ := readsText_expirySchema.member_eq_some_iff.mp h5
        refine ⟨⟨hidValid, hnamespaceValid, hactorValid, hhashValid, hexpiryValid⟩, entries, rfl, ?_⟩
        intro key
        by_cases hkey : key ∈ claimKeys
        · simp only [claimKeys, List.mem_cons, List.not_mem_nil, or_false] at hkey
          rcases hkey with rfl | rfl | rfl | rfl | rfl
          · exact hid
          · exact hnamespace
          · exact hactor
          · exact hhash
          · exact hexpiry
        · -- the object is strict: no other key is present
          rw [ExecutionTokenClaims.member_eq_none hkey, Option.map_none, List.lookup_eq_none_iff]
          intro e he
          rw [bne_iff_ne]
          rintro rfl
          exact hkey (of_decide_eq_true (List.all_eq_true.mp honly e he))
    | _ => cases h
  · rintro ⟨hvalid, entries, rfl, hmembers⟩
    have honly : hasOnlyKeys claimKeys entries = true := by
      refine List.all_eq_true.mpr fun e he => decide_eq_true ?_
      by_contra hkey
      have hnone := hmembers e.1
      rw [ExecutionTokenClaims.member_eq_none hkey, Option.map_none, List.lookup_eq_none_iff] at hnone
      exact bne_iff_ne.mp (hnone e he) rfl
    have h1 := (readsText_boundedString 256).member_eq_some_iff.mpr
      ⟨hmembers "executionId", hvalid.executionId⟩
    have h2 := (readsText_boundedString 256).member_eq_some_iff.mpr
      ⟨hmembers "namespaceId", hvalid.namespaceId⟩
    have h3 := (readsText_boundedString 512).member_eq_some_iff.mpr
      ⟨hmembers "actor", hvalid.actor⟩
    have h4 := readsText_catalogHashSchema.member_eq_some_iff.mpr
      ⟨hmembers "catalogHash", hvalid.catalogHash⟩
    have h5 := readsText_expirySchema.member_eq_some_iff.mpr
      ⟨hmembers "expiresAt", hvalid.expiresAt⟩
    simp only [executionTokenClaimsSchema, Option.bind_eq_bind, h1, h2, h3, h4, h5,
      Option.bind_some, honly, if_true]

/-! ## Minting and verifying -/

/-- Why a token is refused. -/
inductive ExecutionTokenRejection where
  | malformed
  | signatureMismatch
  | expired
  | claimsMismatch
  deriving DecidableEq

/-- What the verifier makes of a token. -/
inductive ExecutionTokenVerification where
  | valid (claims : ExecutionTokenClaims)
  | invalid (reason : ExecutionTokenRejection)
  deriving DecidableEq

/-- What a token is verified against. -/
structure VerifyExecutionTokenOptions where
  now : JsString
  /-- Claims the session already knows, a member that is `undefined` among them. -/
  expect : Option (List (JsString × Option JsString)) := none

section Token

variable [HostPlatform] (hmac : List Byte → List Byte → Option (List Byte))

/-- `sign`. Web Crypto may refuse the key. -/
def sign (payload secret : JsString) : Option (List Byte) :=
  hmac (textEncode secret) (textEncode payload)

/-- `mintExecutionToken`, which throws on claims the schema refuses. -/
def mintExecutionToken (claims : Json) (secret : JsString) : Settled JsString :=
  match executionTokenClaimsSchema claims with
  | none => .rejected
  | some parsed =>
    let payload := base64UrlEncode (textEncode (canonicalJson parsed.toJson))
    match sign hmac payload secret with
    | none => .rejected
    | some signature => .fulfilled (payload ++ fullStop :: base64UrlEncode signature)

/-- `JSON.parse(new TextDecoder().decode(base64UrlDecode(payload)))`. -/
def decodePayload (payload : JsString) : Option Json :=
  (base64UrlDecode payload).bind fun bytes => jsonParse (textDecode bytes)

/-- A claim the session knows that is not the decoded one. -/
def mismatches (claims : ExecutionTokenClaims) (entry : JsString × Option JsString) : Bool :=
  match entry.2 with
  | none => false
  | some value => claims.member entry.1 ≠ some value

/-- What is left to check once the claims are read. -/
def verifyClaims (claims : ExecutionTokenClaims) (options : VerifyExecutionTokenOptions) :
    ExecutionTokenVerification :=
  match HostPlatform.dateParse claims.expiresAt, HostPlatform.dateParse options.now with
  | some expiresAt, some now =>
    if expiresAt ≤ now then .invalid .expired
    else if (options.expect.getD []).any (mismatches claims) then .invalid .claimsMismatch
    else .valid claims
  | _, _ => .invalid .expired

/-- `verifyExecutionToken`. -/
def verifyExecutionToken (token secret : JsString) (options : VerifyExecutionTokenOptions) :
    Settled ExecutionTokenVerification :=
  match token.splitOn fullStop with
  | [payload, signature] =>
    match sign hmac payload secret with
    | none => .rejected
    | some expected =>
      if !timingSafeEqual signature (base64UrlEncode expected) then
        .fulfilled (.invalid .signatureMismatch)
      else
        match decodePayload payload with
        | none => .fulfilled (.invalid .malformed)
        | some decoded =>
          match executionTokenClaimsSchema decoded with
          | none => .fulfilled (.invalid .malformed)
          | some claims => .fulfilled (verifyClaims claims options)
  | _ => .fulfilled (.invalid .malformed)

/-! ## What is accepted -/

omit [HostPlatform] in
/-- **Two segments**: what stands before the one full stop, and what stands after it. -/
theorem splitOn_eq_pair_iff {token payload signature : JsString} :
    token.splitOn fullStop = [payload, signature] ↔
      token = payload ++ fullStop :: signature ∧ fullStop ∉ payload ∧ fullStop ∉ signature := by
  constructor
  · intro h
    by_cases hmem : fullStop ∈ token
    · obtain ⟨before, after, rfl, hbefore⟩ := List.eq_append_cons_of_mem hmem
      rw [List.splitOn_append_cons_self_of_not_mem hbefore, List.cons.injEq] at h
      obtain ⟨rfl, hrest⟩ := h
      by_cases hagain : fullStop ∈ after
      · -- a second full stop makes a third segment
        obtain ⟨middle, last, rfl, hmiddle⟩ := List.eq_append_cons_of_mem hagain
        rw [List.splitOn_append_cons_self_of_not_mem hmiddle, List.cons.injEq] at hrest
        exact absurd hrest.2 (List.splitOn_ne_nil _ _)
      · rw [List.splitOn_eq_singleton hagain, List.cons.injEq] at hrest
        obtain ⟨rfl, -⟩ := hrest
        exact ⟨rfl, hbefore, hagain⟩
    · rw [List.splitOn_eq_singleton hmem] at h
      cases h
  · rintro ⟨rfl, hpayload, hsignature⟩
    rw [List.splitOn_append_cons_self_of_not_mem hpayload, List.splitOn_eq_singleton hsignature]

omit [HostPlatform] in
theorem not_any_mismatches_iff {claims : ExecutionTokenClaims}
    {expect : List (JsString × Option JsString)} :
    expect.any (mismatches claims) = false ↔
      ∀ key value, (key, some value) ∈ expect → claims.member key = some value := by
  rw [List.any_eq_false]
  constructor
  · intro h key value hmem
    have hentry := h (key, some value) hmem
    simpa [mismatches] using hentry
  · rintro h ⟨key, stated⟩ hmem
    cases stated with
    | none => simp [mismatches]
    | some value => simpa [mismatches] using h key value hmem

theorem verifyClaims_valid_iff {claims accepted : ExecutionTokenClaims}
    {options : VerifyExecutionTokenOptions} :
    verifyClaims claims options = .valid accepted ↔
      accepted = claims ∧
      (∃ expiry now, HostPlatform.dateParse claims.expiresAt = some expiry ∧
        HostPlatform.dateParse options.now = some now ∧ now < expiry) ∧
      ∀ key value, (key, some value) ∈ options.expect.getD [] →
        claims.member key = some value := by
  rw [← not_any_mismatches_iff]
  unfold verifyClaims
  split
  · next expiry now hexpiry hnow =>
      simp only [hexpiry, hnow, Option.some.injEq]
      split_ifs with hlate hmismatch
      · refine iff_of_false nofun ?_
        rintro ⟨-, ⟨_, _, rfl, rfl, hlt⟩, -⟩
        omega
      · exact iff_of_false nofun fun h => by rw [h.2.2] at hmismatch; cases hmismatch
      · rw [ExecutionTokenVerification.valid.injEq, eq_comm]
        refine ⟨fun h => ⟨h, ⟨expiry, now, rfl, rfl, by omega⟩, ?_⟩, fun h => h.1⟩
        exact Bool.eq_false_of_not_eq_true hmismatch
  · next hunparsed =>
      refine iff_of_false nofun ?_
      rintro ⟨-, ⟨expiry, now, hexpiry, hnow, -⟩, -⟩
      exact hunparsed expiry now hexpiry hnow

/-- **What the verifier accepts**: two segments, of which the second is the HMAC of the first, and
claims in the first that the schema, the clock and the session accept. -/
theorem verifyExecutionToken_valid_iff {token secret : JsString}
    {options : VerifyExecutionTokenOptions} {claims : ExecutionTokenClaims} :
    verifyExecutionToken hmac token secret options = .fulfilled (.valid claims) ↔
      ∃ payload expected decoded,
        token.splitOn fullStop = [payload, base64UrlEncode expected] ∧
        sign hmac payload secret = some expected ∧
        decodePayload payload = some decoded ∧
        executionTokenClaimsSchema decoded = some claims ∧
        verifyClaims claims options = .valid claims := by
  constructor
  · intro h
    unfold verifyExecutionToken at h
    split at h
    · next payload signature hsplit =>
        split at h
        · cases h
        · next expected hsign =>
            split at h
            · cases h
            · next hequal =>
                rw [Bool.not_eq_true, Bool.not_eq_false', timingSafeEqual_iff] at hequal
                split at h
                · cases h
                · next decoded hdecoded =>
                    split at h
                    · cases h
                    · next read hread =>
                        have hvalid := Settled.fulfilled.inj h
                        obtain rfl := (verifyClaims_valid_iff.mp hvalid).1
                        exact ⟨payload, expected, decoded, hequal ▸ hsplit, hsign, hdecoded, hread,
                          hvalid⟩
    · cases h
  · rintro ⟨payload, expected, decoded, hsplit, hsign, hdecoded, hread, hvalid⟩
    have hequal : timingSafeEqual (base64UrlEncode expected) (base64UrlEncode expected) = true :=
      timingSafeEqual_iff.mpr rfl
    unfold verifyExecutionToken
    simp only [hsplit, hsign, hequal, Bool.not_true, Bool.false_eq_true, if_false, hdecoded, hread,
      hvalid]

/-! ## What is minted is read back -/

/-- The claims in the order canonical JSON writes them. -/
def canonicalClaims (c : ExecutionTokenClaims) : Json :=
  .obj ((Json.sortEntries HostPlatform.localeCompare c.entries).map fun e => (e.1, .str e.2))

theorem sortKeys_toJson (c : ExecutionTokenClaims) :
    c.toJson.sortKeys HostPlatform.localeCompare = canonicalClaims c := by
  have hchildren : (c.entries.map fun e => (e.1, Json.str e.2)).map
      (fun e => (e.1, e.2.sortKeys HostPlatform.localeCompare)) =
        c.entries.map fun e => (e.1, Json.str e.2) := by
    rw [List.map_map]
    rfl
  rw [ExecutionTokenClaims.toJson, Json.sortKeys, Json.sortKeysEntries_eq_map, hchildren,
    canonicalClaims, ← Json.sortEntries_map _ Json.str]

theorem perm_canonical (c : ExecutionTokenClaims) :
    (Json.sortEntries HostPlatform.localeCompare c.entries).Perm c.entries :=
  Json.sortEntries_perm _ _

omit [HostPlatform] in
/-- No claim is named by an index, so none is moved to the front of an object. -/
theorem arrayIndex_claimKey {key : JsString} (h : key ∈ claimKeys) : arrayIndex key = none := by
  simp only [claimKeys, List.mem_cons, List.not_mem_nil, or_false] at h
  rcases h with rfl | rfl | rfl | rfl | rfl
  all_goals decide +kernel

omit [HostPlatform] in
theorem nodup_entries (c : ExecutionTokenClaims) : (c.entries.map Prod.fst).Nodup := by
  rw [c.map_fst_entries]
  decide +kernel

theorem nodup_canonical (c : ExecutionTokenClaims) :
    ((Json.sortEntries HostPlatform.localeCompare c.entries).map Prod.fst).Nodup :=
  ((perm_canonical c).map Prod.fst).nodup_iff.mpr (nodup_entries c)

theorem numberFree_canonicalClaims (c : ExecutionTokenClaims) : (canonicalClaims c).NumberFree := by
  refine .obj fun e he => ?_
  obtain ⟨text, -, rfl⟩ := List.mem_map.mp he
  exact .str _

/-- **The payload of a token decodes to the claims it was made from**, in canonical order. -/
theorem decodePayload_canonicalJson (c : ExecutionTokenClaims) :
    decodePayload (base64UrlEncode (textEncode (canonicalJson c.toJson))) =
      some (canonicalClaims c) := by
  have htext : canonicalJson c.toJson =
      (canonicalClaims c).stringify HostPlatform.numberToString := by
    rw [canonicalJson_eq_stringify, sortKeys_toJson]
  have hformed : WellFormed (canonicalJson c.toJson) :=
    htext ▸ stringify_wellFormed (fun _ h => h.elim) (numberFree_canonicalClaims c)
  have hmark : (canonicalJson c.toJson).head? ≠ some 0xFEFF := by
    rw [htext, canonicalClaims, Json.stringify, List.head?_cons]
    decide
  have hnumbers : (canonicalClaims c).NumbersIn (Json.ReadsBack HostPlatform.numberToString) := by
    refine .obj fun e he => ?_
    obtain ⟨text, -, rfl⟩ := List.mem_map.mp he
    exact .str _
  have hreread : (canonicalClaims c).reread = canonicalClaims c := by
    refine reread_texts (nodup_canonical c) fun e he => arrayIndex_claimKey ?_
    rw [(perm_canonical c).mem_iff] at he
    exact c.map_fst_entries ▸ List.mem_map_of_mem he
  unfold decodePayload
  rw [base64UrlDecode_encode, Option.bind_some, textDecode_textEncode hformed hmark, htext,
    jsonParse_stringify hnumbers, hreread]

/-- **The schema reads accepted claims back out of their canonical form.** -/
theorem executionTokenClaimsSchema_canonicalClaims {c : ExecutionTokenClaims} (hvalid : c.Valid) :
    executionTokenClaimsSchema (canonicalClaims c) = some c := by
  rw [executionTokenClaimsSchema_eq_some_iff]
  refine ⟨hvalid, _, rfl, fun key => ?_⟩
  rw [lookup_texts, lookup_eq_of_perm (perm_canonical c) (nodup_canonical c)]
  rfl

/-- **When a token is minted**, and which. -/
theorem mintExecutionToken_fulfilled_iff {value : Json} {secret token : JsString} :
    mintExecutionToken hmac value secret = .fulfilled token ↔
      ∃ claims signature, executionTokenClaimsSchema value = some claims ∧
        sign hmac (base64UrlEncode (textEncode (canonicalJson claims.toJson))) secret =
          some signature ∧
        token = base64UrlEncode (textEncode (canonicalJson claims.toJson)) ++
          fullStop :: base64UrlEncode signature := by
  unfold mintExecutionToken
  constructor
  · intro h
    split at h
    · cases h
    · next claims hclaims =>
        dsimp only at h
        split at h
        · cases h
        · next signature hsign =>
            exact ⟨claims, signature, hclaims, hsign, (Settled.fulfilled.inj h).symm⟩
  · rintro ⟨claims, signature, hclaims, hsign, htoken⟩
    rw [htoken]
    simp only [hclaims, hsign]

end Token

/-! ## Round trip and rejection -/

/-- **A token verifies exactly when it is one the secret's holder signed, of accepted claims, in
time and for this session**, and a minted token is one. -/
theorem execution_token_round_trip [HostPlatform]
    (hmac : List Byte → List Byte → Option (List Byte)) :
    (∀ bytes, base64UrlDecode (base64UrlEncode bytes) = some bytes) ∧
    (∀ (value : Json) (secret token : JsString),
      mintExecutionToken hmac value secret = .fulfilled token →
      ∃ claims entries, value = .obj entries ∧
        (∀ key, entries.lookup key = (claims.member key).map .str) ∧
        ∀ (options : VerifyExecutionTokenOptions) (expiry now : ℤ),
          HostPlatform.dateParse claims.expiresAt = some expiry →
          HostPlatform.dateParse options.now = some now → now < expiry →
          (∀ key stated, (key, some stated) ∈ options.expect.getD [] →
            claims.member key = some stated) →
          verifyExecutionToken hmac token secret options = .fulfilled (.valid claims)) ∧
    ∀ (token secret : JsString) (options : VerifyExecutionTokenOptions)
      (claims : ExecutionTokenClaims),
      verifyExecutionToken hmac token secret options = .fulfilled (.valid claims) ↔
        ∃ payload signature expected bytes decoded,
          (token = payload ++ fullStop :: signature ∧ fullStop ∉ payload ∧ fullStop ∉ signature) ∧
          hmac (textEncode secret) (textEncode payload) = some expected ∧
          signature = base64UrlEncode expected ∧
          base64UrlDecode payload = some bytes ∧ jsonParse (textDecode bytes) = some decoded ∧
          executionTokenClaimsSchema decoded = some claims ∧
          (∃ expiry now, HostPlatform.dateParse claims.expiresAt = some expiry ∧
            HostPlatform.dateParse options.now = some now ∧ now < expiry) ∧
          ∀ key stated, (key, some stated) ∈ options.expect.getD [] →
            claims.member key = some stated := by
  refine ⟨base64UrlDecode_encode, ?_, ?_⟩
  · intro value secret token hminted
    obtain ⟨claims, signature, hread, hsign, htoken⟩ :=
      (mintExecutionToken_fulfilled_iff hmac).mp hminted
    -- what was signed is the canonical text of the claims, which the schema reads back
    obtain ⟨hvalid, entries, hobject, hmembers⟩ := executionTokenClaimsSchema_eq_some_iff.mp hread
    refine ⟨claims, entries, hobject, hmembers, ?_⟩
    intro options expiry now hexpiry hnow hbefore hstated
    refine (verifyExecutionToken_valid_iff hmac).mpr ⟨_, signature, _, ?_, hsign,
      decodePayload_canonicalJson claims, executionTokenClaimsSchema_canonicalClaims hvalid, ?_⟩
    · exact splitOn_eq_pair_iff.mpr
        ⟨htoken, fullStop_not_mem_encode _, fullStop_not_mem_encode _⟩
    · exact verifyClaims_valid_iff.mpr ⟨rfl, ⟨expiry, now, hexpiry, hnow, hbefore⟩, hstated⟩
  · intro token secret options claims
    rw [verifyExecutionToken_valid_iff]
    constructor
    · rintro ⟨payload, expected, decoded, hsplit, hsign, hdecoded, hread, hvalid⟩
      obtain ⟨bytes, hbytes, hparsed⟩ := Option.bind_eq_some_iff.mp hdecoded
      obtain ⟨-, hexpiry, hstated⟩ := verifyClaims_valid_iff.mp hvalid
      exact ⟨payload, _, expected, bytes, decoded, splitOn_eq_pair_iff.mp hsplit, hsign, rfl, hbytes,
        hparsed, hread, hexpiry, hstated⟩
    · rintro ⟨payload, signature, expected, bytes, decoded, htoken, hsign, rfl, hbytes, hparsed,
        hread, hexpiry, hstated⟩
      refine ⟨payload, expected, decoded, splitOn_eq_pair_iff.mpr htoken, hsign, ?_, hread, ?_⟩
      · exact Option.bind_eq_some_iff.mpr ⟨bytes, hbytes, hparsed⟩
      · exact verifyClaims_valid_iff.mpr ⟨rfl, hexpiry, hstated⟩

namespace Sample

/-- The claims of one session. -/
def claims : ExecutionTokenClaims where
  executionId := "exec-1"
  namespaceId := "ns-1"
  actor := "agent:a-1"
  catalogHash := "abababababababababababababababababababababababababababababababab"
  expiresAt := "2026-01-01T00:00:00Z"

/-- Their first segment. -/
def payload : JsString :=
  JsString.ofString "eyJhY3RvciI6ImFnZW50OmEtMSIsImNhdGFsb2dIYXNoIjoiYWJhYmFiYWJhYmFiYWJhYmFiYWJhYmFiYWJh" ++
    JsString.ofString "YmFiYWJhYmFiYWJhYmFiYWJhYmFiYWJhYmFiYWJhYmFiYWJhYiIsImV4ZWN1dGlvbklkIjoiZXhlYy0xIiwi" ++
    JsString.ofString "ZXhwaXJlc0F0IjoiMjAyNi0wMS0wMVQwMDowMDowMFoiLCJuYW1lc3BhY2VJZCI6Im5zLTEifQ"

/-- Its signature. -/
def signature : JsString := "xsOiuPtzNsZJlWtKb_oxjaWzKvW9pUNaSoiuKHphfcc"

/-- HMAC-SHA-256 of the payload under the key `k`. -/
def payloadMac : List Byte :=
  [198, 195, 162, 184, 251, 115, 54, 198, 73, 149, 107, 74, 111, 250, 49, 141, 165, 179, 42, 245,
    189, 165, 67, 90, 74, 136, 174, 40, 122, 97, 125, 199]

/-- HMAC-SHA-256 where the sample uses it. -/
def hmac (key message : List Byte) : Option (List Byte) :=
  if key = textEncode "k" ∧ message = textEncode payload then some payloadMac else none

/-- A verifier that knows the execution and, of the actor, nothing. -/
def options : VerifyExecutionTokenOptions where
  now := "2025-12-31T23:59:59Z"
  expect := some [("executionId", some "exec-1"), ("actor", none)]

end Sample

open scoped SharedOS.Foundation.Reference in
/-- A token of these claims, verified a second before it expires. -/
theorem execution_token_round_trip_in_time :
    mintExecutionToken Sample.hmac Sample.claims.toJson "k" =
        .fulfilled (Sample.payload ++ fullStop :: Sample.signature) ∧
      verifyExecutionToken Sample.hmac (Sample.payload ++ fullStop :: Sample.signature) "k"
        Sample.options = .fulfilled (.valid Sample.claims) := by
  have hminted : mintExecutionToken Sample.hmac Sample.claims.toJson "k" =
      .fulfilled (Sample.payload ++ fullStop :: Sample.signature) := by decide +kernel
  obtain ⟨claims, entries, hobject, hmembers, hverify⟩ :=
    (execution_token_round_trip Sample.hmac).2.1 _ _ _ hminted
  have hclaims : claims = Sample.claims := by
    have htexts : Function.Injective Json.str := fun _ _ => Json.str.inj
    refine ExecutionTokenClaims.eq_of_members fun key => Option.map_injective htexts ?_
    rw [← hmembers key, ← Json.obj.inj hobject, lookup_texts]
    rfl
  refine ⟨hminted, ?_⟩
  rw [← hclaims]
  refine hverify Sample.options 1767225600000 1767225599000 ?_ (by decide +kernel) (by decide) ?_
  · rw [hclaims]
    decide +kernel
  · intro key stated hmem
    simp only [Sample.options, Option.getD_some, List.mem_cons, Prod.mk.injEq, Option.some.injEq,
      reduceCtorEq, and_false, List.not_mem_nil, or_false] at hmem
    obtain ⟨rfl, rfl⟩ := hmem
    rw [hclaims]
    rfl

end SharedOS.Mcp
