import MernChat.Runtime.Encoding
import MernChat.Runtime.IsoDate
import MernChat.Runtime.Json

/-!
# Message cursors

A cursor is a date and an id, written as a JSON text in base64url. Reading one checks its
version, that the date is printed as `toISOString` prints it, and that the id matches the
application's regular expression.

## Main definitions

* `MessageCursor`, `encodeMessageCursor`, `decodeMessageCursor`

## Main results

* `decodeMessageCursor_encode`: a cursor of a date and a printed id is read back exactly when the
  regular expression accepts the id
-/

namespace MernChat

structure MessageCursor where
  createdAt : JsString
  id : JsString
deriving DecidableEq

/-- `JSON.stringify({ v: CURSOR_VERSION, createdAt, id })`. -/
def stringifyCursor (cursor : MessageCursor) : JsString :=
  js "\x7b\"v\":2,\"createdAt\":" ++ (jsonQuote cursor.createdAt ++ (js ",\"id\":" ++
    (jsonQuote cursor.id ++ js "\x7d")))

def encodeMessageCursor (cursor : MessageCursor) : JsString :=
  base64urlEncode (utf8Encode (stringifyCursor cursor))

/-- The cursor of a parsed value. -/
def cursorOfJson (parsed : Json) : Option MessageCursor :=
  match parsed.field (js "v"), parsed.field (js "createdAt"), parsed.field (js "id") with
  | some (.num v), some (.str createdAt), some (.str id) =>
    if v.isTwo && (parseISOString createdAt).isSome && isUuid id then some { createdAt, id }
    else none
  | _, _, _ => none

def decodeMessageCursor (value : JsString) : Option MessageCursor :=
  if value = [] ∨ 512 < value.length then none
  else (parseJson (utf8Decode (base64urlDecode value))).bind cursorOfJson

/-! ## What is written is read back -/

/-- The text of a cursor of plain strings, member by member. -/
theorem stringifyCursor_eq {cursor : MessageCursor}
    (hd : Plain cursor.createdAt) (hi : Plain cursor.id) :
    stringifyCursor cursor = 0x7B :: (js "\"v\":2," ++ 0x22 :: (js "createdAt" ++
      0x22 :: 0x3A :: 0x22 :: (cursor.createdAt ++ 0x22 :: 0x2C :: 0x22 :: (js "id" ++
        0x22 :: 0x3A :: 0x22 :: (cursor.id ++ 0x22 :: 0x7D :: []))))) := by
  simp only [stringifyCursor, jsonQuote, quoteBody_plain hd, quoteBody_plain hi]
  rw [show js "\x7b\"v\":2,\"createdAt\":" =
      0x7B :: (js "\"v\":2," ++ 0x22 :: (js "createdAt" ++ [0x22, 0x3A])) by decide +kernel,
    show js ",\"id\":" = 0x2C :: 0x22 :: (js "id" ++ [0x22, 0x3A]) by decide +kernel,
    show js "\x7d" = [0x7D] by decide +kernel]
  simp

theorem parseValue_string {s : JsString} (h : Plain s) (t : JsString)
    (fuel : Nat) : parseValue (fuel + 1) (0x22 :: (s ++ 0x22 :: t)) = some (.str s, t) := by
  show (parseStringBody (s ++ 0x22 :: t)).map (fun r => (Json.str r.1, r.2)) = some (.str s, t)
  rw [parseStringBody_plain h]
  rfl

/-- A member whose key and value are plain strings, with another member after it. -/
theorem parseMembers_string {key s : JsString} (hkey : Plain key) (h : Plain s) (t : JsString)
    (fuel : Nat) :
    parseMembers (fuel + 2) (0x22 :: (key ++ 0x22 :: 0x3A :: 0x22 :: (s ++ 0x22 :: 0x2C :: t))) =
      (parseMembers (fuel + 1) t).map fun r => ((key, .str s) :: r.1, r.2) := by
  show ((parseStringBody (key ++ 0x22 :: 0x3A :: 0x22 :: (s ++ 0x22 :: 0x2C :: t))).bind fun k => _)
    = _
  rw [parseStringBody_plain hkey]
  show ((parseValue (fuel + 1) (0x22 :: (s ++ 0x22 :: 0x2C :: t))).bind fun v => _) = _
  rw [parseValue_string h]
  rfl

/-- The last member. -/
theorem parseMembers_last {key s : JsString} (hkey : Plain key) (h : Plain s) (t : JsString)
    (fuel : Nat) :
    parseMembers (fuel + 2) (0x22 :: (key ++ 0x22 :: 0x3A :: 0x22 :: (s ++ 0x22 :: 0x7D :: t))) =
      some ([(key, .str s)], t) := by
  show ((parseStringBody (key ++ 0x22 :: 0x3A :: 0x22 :: (s ++ 0x22 :: 0x7D :: t))).bind fun k => _)
    = _
  rw [parseStringBody_plain hkey]
  show ((parseValue (fuel + 1) (0x22 :: (s ++ 0x22 :: 0x7D :: t))).bind fun v => _) = _
  rw [parseValue_string h]
  rfl

/-- The member of the version. -/
theorem parseMembers_version (t : JsString) (fuel : Nat) :
    parseMembers (fuel + 2) (js "\"v\":2," ++ t) =
      (parseMembers (fuel + 1) t).map fun r => ((js "v", .num ⟨2, 0⟩) :: r.1, r.2) := by
  rfl

/-- The JSON text of a cursor is read as the object it was made of. -/
theorem parseJson_stringifyCursor {cursor : MessageCursor}
    (hd : Plain cursor.createdAt) (hi : Plain cursor.id) :
    parseJson (stringifyCursor cursor) = some (.obj [(js "v", .num ⟨2, 0⟩),
      (js "createdAt", .str cursor.createdAt), (js "id", .str cursor.id)]) := by
  have hkey : Plain (js "createdAt") := by decide +kernel
  have hkey' : Plain (js "id") := by decide +kernel
  rw [stringifyCursor_eq hd hi]
  generalize hmembers : js "\"v\":2," ++ 0x22 :: (js "createdAt" ++ 0x22 :: 0x3A :: 0x22 ::
    (cursor.createdAt ++ 0x22 :: 0x2C :: 0x22 :: (js "id" ++ 0x22 :: 0x3A :: 0x22 ::
      (cursor.id ++ 0x22 :: 0x7D :: [])))) = members
  -- one unit of fuel for the object and one for each member but the last, which takes two
  obtain ⟨fuel, hfuel⟩ : ∃ fuel, (0x7B :: members).length = fuel + 4 := by
    refine ⟨members.length - 3, ?_⟩
    have hlen := congrArg List.length hmembers
    rw [List.length_append, show (js "\"v\":2,").length = 6 by decide +kernel] at hlen
    rw [List.length_cons]
    omega
  have hparse : parseMembers (fuel + 4) members = some ([(js "v", .num ⟨2, 0⟩),
      (js "createdAt", .str cursor.createdAt), (js "id", .str cursor.id)], []) := by
    rw [← hmembers, parseMembers_version, parseMembers_string hkey hd, parseMembers_last hkey' hi]
    rfl
  have hvalue : parseValue (fuel + 4 + 1) (0x7B :: members) =
      (parseMembers (fuel + 4) members).map fun r => (.obj r.1, r.2) := by
    rw [← hmembers]
    rfl
  rw [parseJson, hfuel, hvalue, hparse]
  rfl

theorem ascii_stringifyCursor {cursor : MessageCursor} (hd : Plain cursor.createdAt)
    (hi : Plain cursor.id) : Ascii (stringifyCursor cursor) := by
  have hv : Ascii (js "\"v\":2,") := by decide +kernel
  have hkey : Ascii (js "createdAt") := by decide +kernel
  have hkey' : Ascii (js "id") := by decide +kernel
  rw [stringifyCursor_eq hd hi]
  simp only [ascii_cons, ascii_append, hv, hkey, hkey', hd.ascii, hi.ascii, ascii_nil]
  decide

theorem length_stringifyCursor {cursor : MessageCursor} (hd : Plain cursor.createdAt)
    (hi : Plain cursor.id) :
    (stringifyCursor cursor).length = cursor.createdAt.length + cursor.id.length + 30 := by
  have hv : (js "\"v\":2,").length = 6 := by decide +kernel
  have hkey : (js "createdAt").length = 9 := by decide +kernel
  have hkey' : (js "id").length = 2 := by decide +kernel
  rw [stringifyCursor_eq hd hi]
  simp only [List.length_cons, List.length_append, hv, hkey, hkey', List.length_nil]
  omega

theorem length_utf8Encode_of_ascii {s : JsString} (h : Ascii s) :
    (utf8Encode s).length = s.length := by
  rw [utf8Encode_of_ascii h, List.length_map]

/-- A cursor is not the empty string, which the callers take for no cursor. -/
theorem encodeMessageCursor_ne_nil {cursor : MessageCursor} (hd : Plain cursor.createdAt)
    (hi : Plain cursor.id) : encodeMessageCursor cursor ≠ [] := by
  intro hnil
  have hdecode := base64urlDecode_base64urlEncode (utf8Encode (stringifyCursor cursor))
  rw [← encodeMessageCursor, hnil] at hdecode
  have hzero := congrArg List.length hdecode
  rw [length_utf8Encode_of_ascii (ascii_stringifyCursor hd hi), length_stringifyCursor hd hi]
    at hzero
  simp [base64urlDecode, base64Bytes] at hzero

/-- A cursor of a date and a plain id that is not too long. -/
theorem decodeMessageCursor_encode_plain {t : Int} (ht : -MAX_TIME ≤ t ∧ t ≤ MAX_TIME)
    {id : JsString} (hi : Plain id) (hid : id.length ≤ 48) :
    decodeMessageCursor (encodeMessageCursor { createdAt := isoText t, id }) =
      if isUuid id then some { createdAt := isoText t, id } else none := by
  have hd := plain_isoText t
  have hlen : (encodeMessageCursor ⟨isoText t, id⟩).length ≤ 512 := by
    have hbound := length_base64urlEncode (utf8Encode (stringifyCursor ⟨isoText t, id⟩))
    rw [length_utf8Encode_of_ascii (ascii_stringifyCursor hd hi), length_stringifyCursor hd hi]
      at hbound
    have hdate := length_isoText t
    unfold encodeMessageCursor
    simp only at hbound
    omega
  have hne : encodeMessageCursor ⟨isoText t, id⟩ ≠ [] := encodeMessageCursor_ne_nil hd hi
  have hread : parseJson (utf8Decode (base64urlDecode (encodeMessageCursor
      ⟨isoText t, id⟩))) = some (.obj [(js "v", .num ⟨2, 0⟩),
      (js "createdAt", .str (isoText t)), (js "id", .str id)]) := by
    rw [encodeMessageCursor, base64urlDecode_base64urlEncode, utf8Decode_utf8Encode,
      toWellFormed_of_ascii (ascii_stringifyCursor hd hi), parseJson_stringifyCursor hd hi]
  have hfields : cursorOfJson (.obj [(js "v", .num ⟨2, 0⟩), (js "createdAt", .str (isoText t)),
      (js "id", .str id)]) =
      if (JsonNumber.mk 2 0).isTwo && (parseISOString (isoText t)).isSome && isUuid id then
        some { createdAt := isoText t, id } else none := rfl
  have htwo : (JsonNumber.mk 2 0).isTwo = true := by decide
  rw [decodeMessageCursor, if_neg (by simp [hne, hlen]), hread, Option.bind_some, hfields,
    parseISOString_isoText ht, htwo]
  simp

/-- **A cursor is read back** exactly when its id is accepted. -/
theorem decodeMessageCursor_encode {t : Int} (ht : -MAX_TIME ≤ t ∧ t ≤ MAX_TIME) (id : Uuid) :
    decodeMessageCursor (encodeMessageCursor { createdAt := isoText t, id := id.toText }) =
      if isUuid id.toText then some { createdAt := isoText t, id := id.toText } else none :=
  decodeMessageCursor_encode_plain ht id.plain_toText id.length_toText_le

end MernChat
