import MacpControlPlane.Lib.JsonRoundTrip
import MacpControlPlane.Runtime.ProtoRegistry

/-!
# The payload of a contribution (`Contribute` of `ext.multi_round.v1`)

A contribution is sent as a protobuf message or as JSON text, and nothing but the bytes tells which: `decodeKnown`
takes what protobufjs makes of them only where encoding it again gives the same bytes.  Such an encoding starts with
the tag of the field `value`, which no JSON object does.

protobufjs is a parameter.  A message of the type has no other field than `value`, unknown fields being dropped; what
the decoder makes of bytes that are not such an encoding is open.
-/

namespace MacpControlPlane

open Js ProtoRegistry

variable {N : Type}

/-- `Buffer.from(text, 'utf8')` -/
def utf8 (text : String) : List UInt8 := text.toByteArray.data.toList

/-- `buffer.toString('utf8')`, with what `replaceInvalid` makes of bytes that are not UTF-8. -/
def utf8Text (replaceInvalid : List UInt8 → String) (bytes : List UInt8) : String :=
  (String.fromUTF8? ⟨bytes.toArray⟩).getD (replaceInvalid bytes)

theorem utf8Text_utf8 (replaceInvalid : List UInt8 → String) (text : String) :
    utf8Text replaceInvalid (utf8 text) = text := by
  have hbytes : (⟨(utf8 text).toArray⟩ : ByteArray) = text.toByteArray := by
    simp [utf8]
  unfold utf8Text String.fromUTF8?
  rw [hbytes, dif_pos text.isValidUTF8]
  rfl

private theorem utf8_ofList (cs : List Char) : utf8 (String.ofList cs) = cs.flatMap String.utf8EncodeChar := by
  simp [utf8, String.toByteArray_ofList, List.utf8Encode]

namespace Contribute

def typeName : String := "macp.modes.multi_round.v1.ContributePayload"

/-- A message of the type: its own property `value`, if it has one. -/
structure ContributePayload where
  value : Option String
  deriving DecidableEq

/-- What the registry uses of protobufjs. -/
structure Protobufjs (N : Type) where
  /-- `type.decode` of `ContributePayload`; `none` when it throws. -/
  decode : List UInt8 → Option ContributePayload
  /-- `type.encode(message).finish()` -/
  encode : ContributePayload → List UInt8
  /-- `decodeMessage` and `isCanonicalProto` of the other types. -/
  decodeOther : String → List UInt8 → Option (JsonObject N)
  isCanonicalOther : String → List UInt8 → Bool

/-- `type.toObject` without defaults. -/
def toObject (message : ContributePayload) : JsonObject N :=
  match message.value with
  | some value => [("value", .str value)]
  | none => []

/-- The other libraries. -/
structure Node where
  replaceInvalid : List UInt8 → String
  toBase64 : List UInt8 → String
  ofBase64 : String → List UInt8

variable (P : Protobufjs N) (node : Node)

def isCanonicalProto (payload : List UInt8) : Bool :=
  match P.decode payload with
  | some message => P.encode message = payload
  | none => false

/-- The registry over protobufjs, `Buffer` and `JSON`. -/
def codec [JsNumber N] : Codec (List UInt8) N where
  decodeMessage type payload :=
    if type = typeName then (P.decode payload).map toObject else P.decodeOther type payload
  isCanonicalProto type payload :=
    if type = typeName then isCanonicalProto P payload else P.isCanonicalOther type payload
  isEmpty := List.isEmpty
  toUtf8 := utf8Text node.replaceInvalid
  toBase64 := node.toBase64
  ofBase64 := node.ofBase64
  parseJson := JsonText.parse

/-! ### The wire format -/

/-- A varint, the lowest seven bits first. -/
def varint (n : Nat) : List UInt8 :=
  if n < 128 then [UInt8.ofNat n] else UInt8.ofNat (n % 128 + 128) :: varint (n / 128)

/-- The field `value = 1`, of the wire type `LEN`. -/
def valueField (value : String) : List UInt8 := 0x0a :: (varint (utf8 value).length ++ utf8 value)

/-- The canonical encoding of a contribution: a field that has its default is left out. -/
def canonicalEncoding (value : String) : List UInt8 := if value = "" then [] else valueField value

/-- What the registry relies on: a message is the encoding of its fields, and such an encoding is decoded. -/
structure WireFormat (P : Protobufjs N) : Prop where
  encode_none : P.encode ⟨none⟩ = []
  encode_some : ∀ value, P.encode ⟨some value⟩ = valueField value
  decode_field : ∀ value, P.decode (valueField value) = some ⟨some value⟩

variable {P node} {value : String} {payload : List UInt8}

/-- Only an encoding that begins with the tag of `value` is canonical. -/
theorem not_canonical_of_head (hP : WireFormat P) {byte : UInt8} (hbyte : byte ≠ 0x0a) (rest : List UInt8) :
    isCanonicalProto P (byte :: rest) = false := by
  unfold isCanonicalProto
  cases P.decode (byte :: rest) with
  | none => rfl
  | some message =>
    obtain ⟨value⟩ := message
    cases value with
    | none => simp [hP.encode_none]
    | some value =>
      simp only [hP.encode_some, valueField, decide_eq_false_iff_not, List.cons.injEq, not_and]
      exact fun h => absurd h.symm hbyte

private theorem canonical_valueField (hP : WireFormat P) (value : String) :
    isCanonicalProto P (valueField value) = true := by
  simp [isCanonicalProto, hP.decode_field, hP.encode_some]

variable [JsNumber N]

@[simp] theorem codec_decodeMessage (payload : List UInt8) :
    (codec P node).decodeMessage typeName payload = (P.decode payload).map toObject := by
  simp [codec]

@[simp] theorem codec_isCanonicalProto (payload : List UInt8) :
    (codec P node).isCanonicalProto typeName payload = isCanonicalProto P payload := by
  simp [codec]

private theorem decodeKnown_eq (payload : List UInt8) :
    decodeKnown (codec P node) "ext.multi_round.v1" "Contribute" payload =
      match P.decode payload with
      | some message => resolveValueString (codec P node) typeName payload (toObject message)
      | none => decodeValueStringJson (codec P node) payload := by
  have htype : getKnownTypeName "ext.multi_round.v1" "Contribute" = some typeName := by rfl
  have hjson : typeName ≠ "__json__" := by decide
  have hvalue : typeName ∈ valueStringTypes := by decide
  unfold decodeKnown
  rw [htype]
  simp only [if_neg hjson, codec_decodeMessage, if_pos hvalue]
  cases P.decode payload <;> rfl

private theorem resolveValueString_canonical (hP : WireFormat P) (value : String) :
    resolveValueString (codec P node) typeName (valueField value) (toObject ⟨some value⟩) =
      some [("value", .str value)] := by
  unfold resolveValueString
  rw [codec_isCanonicalProto, canonical_valueField hP]
  rfl

/-- The text begins with a brace. -/
theorem utf8_stringify (fields : JsonObject N) :
    ∃ rest, utf8 (JsonText.stringify (.obj fields)) = 0x7b :: rest := by
  refine ⟨(JsonText.stringifyFields fields ++ ['}']).flatMap String.utf8EncodeChar, ?_⟩
  rw [JsonText.stringify, utf8_ofList, JsonText.stringifyChars, List.flatMap_cons]
  rfl

/-- A text is read as the object that it parses to. -/
theorem decodeValueStringJson_of_parse {text : String} {byte : UInt8} {rest : List UInt8}
    (hbytes : utf8 text = byte :: rest) (hparse : JsonText.parse text = some (.obj [("value", .str value)] : Json N)) :
    decodeValueStringJson (codec P node) (utf8 text) = some [("value", .str value)] := by
  have hempty : (codec P node).isEmpty (utf8 text) = false := by
    rw [hbytes]
    rfl
  have htext : (codec P node).parseJson ((codec P node).toUtf8 (utf8 text)) =
      some (.obj [("value", .str value)]) := by
    simp only [codec, utf8Text_utf8, hparse]
  unfold decodeValueStringJson tryDecodeUtf8
  rw [hempty, htext]
  rfl

private theorem decodeValueStringJson_stringify (value : String) :
    decodeValueStringJson (codec P node) (utf8 (JsonText.stringify (.obj [("value", .str value)] : Json N))) =
      some [("value", .str value)] := by
  obtain ⟨rest, hrest⟩ := utf8_stringify [("value", (.str value : Json N))]
  refine decodeValueStringJson_of_parse hrest (JsonText.parse_stringify ?_)
  simp [JsonText.WellFormed, JsonText.WellFormedFields]

private theorem resolveValueString_stringify (hP : WireFormat P) (value : String) (message : ContributePayload) :
    resolveValueString (codec P node) typeName (utf8 (JsonText.stringify (.obj [("value", .str value)] : Json N)))
      (toObject message) = some [("value", .str value)] := by
  obtain ⟨rest, hrest⟩ := utf8_stringify [("value", (.str value : Json N))]
  have hcanonical : isCanonicalProto P (utf8 (JsonText.stringify (.obj [("value", .str value)] : Json N))) = false := by
    rw [hrest]
    exact not_canonical_of_head hP (by decide : (0x7b : UInt8) ≠ 0x0a) rest
  unfold resolveValueString
  simp only [codec_isCanonicalProto, hcanonical, decodeValueStringJson_stringify, Bool.and_false]
  rfl

/-- A contribution is read as its value from either of its encodings, whatever the value looks like and whatever the
decoder makes of the text. -/
theorem decodeKnown_contribute (hP : WireFormat P) (node : Node) (hvalue : value ≠ "") :
    decodeKnown (codec P node) "ext.multi_round.v1" "Contribute" (canonicalEncoding value) =
        some [("value", .str value)] ∧
      decodeKnown (codec P node) "ext.multi_round.v1" "Contribute"
        (utf8 (JsonText.stringify (.obj [("value", .str value)] : Json N))) = some [("value", .str value)] := by
  constructor
  · rw [canonicalEncoding, if_neg hvalue, decodeKnown_eq, hP.decode_field]
    exact resolveValueString_canonical hP value
  · rw [decodeKnown_eq]
    cases P.decode (utf8 (JsonText.stringify (.obj [("value", .str value)] : Json N))) with
    | some message => exact resolveValueString_stringify hP value message
    | none => exact decodeValueStringJson_stringify value

/-! ### A decoder -/

def readVarint : List UInt8 → Option (Nat × List UInt8)
  | [] => none
  | byte :: rest =>
    if byte.toNat < 128 then some (byte.toNat, rest)
    else (readVarint rest).map fun (n, rest) => (byte.toNat - 128 + 128 * n, rest)

private theorem readVarint_varint (n : Nat) (rest : List UInt8) : readVarint (varint n ++ rest) = some (n, rest) := by
  induction n using Nat.strongRecOn with
  | ind n ih =>
    unfold varint
    split
    next hsmall =>
      have hbyte : (UInt8.ofNat n).toNat = n := UInt8.toNat_ofNat_of_lt' (show n < 256 by omega)
      simp [readVarint, hbyte, hsmall]
    next hlarge =>
      have hbyte : (UInt8.ofNat (n % 128 + 128)).toNat = n % 128 + 128 :=
        UInt8.toNat_ofNat_of_lt' (show n % 128 + 128 < 256 by omega)
      have hvalue : n % 128 + 128 - 128 + 128 * (n / 128) = n := by omega
      simp only [List.cons_append, readVarint, hbyte, if_neg (show ¬ n % 128 + 128 < 128 by omega),
        ih (n / 128) (by omega), Option.map_some, hvalue]

/-- Messages that consist of the field `value` alone, or of no field. -/
def decodeField : List UInt8 → Option ContributePayload
  | [] => some ⟨none⟩
  | tag :: rest =>
    if tag ≠ 0x0a then none
    else (readVarint rest).bind fun (length, bytes) =>
      if bytes.length = length then (String.fromUTF8? ⟨bytes.toArray⟩).map fun value => ⟨some value⟩ else none

def encodeField (message : ContributePayload) : List UInt8 := (message.value.map valueField).getD []

def fieldProtobufjs : Protobufjs N where
  decode := decodeField
  encode := encodeField
  decodeOther _ _ := none
  isCanonicalOther _ _ := false

omit [JsNumber N] in
private theorem wireFormat_fieldProtobufjs : WireFormat (fieldProtobufjs : Protobufjs N) := by
  refine ⟨rfl, fun value => rfl, fun value => ?_⟩
  have hbytes : (⟨(utf8 value).toArray⟩ : ByteArray) = value.toByteArray := by
    simp [utf8]
  show decodeField (valueField value) = _
  unfold decodeField valueField
  simp only [readVarint_varint, Option.bind_some, if_true, hbytes, String.fromUTF8?, dif_pos value.isValidUTF8]
  rfl

/-- A value that is itself the JSON text of a contribution. -/
def textValue : String := "\x7b\"value\":\"x\"\x7d"

theorem decodeKnown_contribute_text :
    decodeKnown (codec (fieldProtobufjs : Protobufjs (Option Rat)) ⟨fun _ => "", fun _ => "", fun _ => []⟩)
        "ext.multi_round.v1" "Contribute" (canonicalEncoding textValue) = some [("value", .str textValue)] ∧
      decodeKnown (codec (fieldProtobufjs : Protobufjs (Option Rat)) ⟨fun _ => "", fun _ => "", fun _ => []⟩)
        "ext.multi_round.v1" "Contribute"
        (utf8 (JsonText.stringify (.obj [("value", .str textValue)] : Json (Option Rat)))) =
          some [("value", .str textValue)] :=
  decodeKnown_contribute wireFormat_fieldProtobufjs _ (by decide)

end Contribute

end MacpControlPlane
