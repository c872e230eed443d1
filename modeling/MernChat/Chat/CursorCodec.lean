import MernChat.Chat.Api

/-!
# What a cursor may be

The function that reads cursors with what it throws and catches, and its two halves put together:
every cursor of a printed date and an accepted id comes back from its text, and nothing else comes
out of any text.

## Main definitions

* `tryDecodeMessageCursor`: the `try` of `decodeMessageCursor`, with what it throws
* `decodeOrNull`: the function with its `catch`
* `CanonicalDate`: the texts `toISOString` prints

## Main results

* `decodeOrNull_eq`: the function returns, for every text
* `cursor_codec`: the two halves
-/

namespace MernChat

/-- What `JSON.parse` and `toISOString` throw. -/
inductive CursorException
  | SyntaxError
  | RangeError
deriving DecidableEq

/-- A text that `toISOString` prints for a valid date. -/
def CanonicalDate (s : JsString) : Prop := ∃ t, (-MAX_TIME ≤ t ∧ t ≤ MAX_TIME) ∧ s = isoText t

section Decode

variable (dateParse : JsString → Option Int)

/-- `new Date(s)`. -/
def newDate (s : JsString) : JsDate := (dateParse s).bind timeClip

/-- The checks of a cursor's date and id. -/
def checkCursor (createdAt id : JsString) : Except CursorException (Option MessageCursor) :=
  let timestamp := newDate dateParse createdAt
  if timestamp = none then .ok none
  else
    match toISOString timestamp with
    | none => .error .RangeError
    | some printed =>
      if printed ≠ createdAt then .ok none
      else if isUuid id then .ok (some { createdAt, id })
      else .ok none

/-- The `try` of `decodeMessageCursor`. -/
def tryDecodeMessageCursor (value : JsString) : Except CursorException (Option MessageCursor) :=
  if value = [] ∨ 512 < value.length then .ok none
  else
    match parseJson (utf8Decode (base64urlDecode value)) with
    | none => .error .SyntaxError
    | some parsed =>
      -- a value that is no object has no fields
      match parsed.field (js "v"), parsed.field (js "createdAt"), parsed.field (js "id") with
      | some (.num v), some (.str createdAt), some (.str id) =>
        if v.isTwo then checkCursor dateParse createdAt id else .ok none
      | _, _, _ => .ok none

/-- `decodeMessageCursor`, with its `catch`. -/
def decodeOrNull (value : JsString) : Except CursorException (Option MessageCursor) :=
  tryCatch (tryDecodeMessageCursor dateParse value) fun _ => .ok none

end Decode

variable {dateParse : JsString → Option Int}

theorem timeClip_eq_some {ms t : Int} :
    timeClip ms = some t ↔ (-MAX_TIME ≤ t ∧ t ≤ MAX_TIME) ∧ ms = t := by
  unfold timeClip
  split_ifs with hbound
  · rw [Option.some.injEq]
    constructor
    · rintro rfl
      exact ⟨hbound, rfl⟩
    · exact And.right
  · simp only [false_iff, not_and]
    rintro ht rfl
    exact hbound ht

theorem parseISOString_isSome_iff {s : JsString} :
    (parseISOString s).isSome = true ↔ CanonicalDate s := by
  constructor
  · intro h
    unfold parseISOString at h
    simp only at h
    split_ifs at h with hprint
    · obtain ⟨t, ht, hs⟩ := Option.map_eq_some_iff.mp hprint
      exact ⟨t, (timeClip_eq_some.mp ht).1, hs.symm⟩
    · cases h
  · rintro ⟨t, ht, rfl⟩
    rw [parseISOString_isoText ht]
    rfl

/-- Reading a date and printing it gives the text back exactly for the texts of dates. -/
theorem toISOString_newDate_iff (hdate : DateParse.Documented dateParse) {s : JsString} :
    toISOString (newDate dateParse s) = some s ↔ CanonicalDate s := by
  constructor
  · intro h
    obtain ⟨t, ht, hs⟩ := Option.map_eq_some_iff.mp h
    obtain ⟨ms, -, hclip⟩ := Option.bind_eq_some_iff.mp ht
    exact ⟨t, (timeClip_eq_some.mp hclip).1, hs.symm⟩
  · rintro ⟨t, ht, rfl⟩
    rw [newDate, hdate.iso t ht, Option.bind_some, timeClip_eq_some.mpr ⟨ht, rfl⟩]
    rfl

/-- The checks of a date and an id throw nothing. -/
theorem checkCursor_eq (hdate : DateParse.Documented dateParse) (createdAt id : JsString) :
    checkCursor dateParse createdAt id =
      .ok (if (parseISOString createdAt).isSome && isUuid id then some { createdAt, id }
        else none) := by
  have hprints := parseISOString_isSome_iff (s := createdAt)
  have hiff := (toISOString_newDate_iff hdate).trans hprints.symm
  unfold checkCursor
  cases hnew : newDate dateParse createdAt with
  | none =>
    rw [hnew] at hiff
    have hnone : (parseISOString createdAt).isSome = false := by
      rw [Bool.eq_false_iff, ne_eq, ← hiff]
      simp [toISOString]
    rw [hnone]
    rfl
  | some t =>
    -- a date that is not `NaN` is printed
    rw [hnew, toISOString, Option.map_some, Option.some.injEq] at hiff
    simp only [toISOString, Option.map_some, reduceCtorEq, if_false]
    by_cases hprint : isoText t = createdAt
    · rw [hiff.mp hprint, if_neg (not_not.mpr hprint), Bool.true_and]
      split_ifs <;> rfl
    · have hnone : (parseISOString createdAt).isSome = false := by
        rw [Bool.eq_false_iff, ne_eq, ← hiff]
        exact hprint
      rw [hnone, if_pos hprint]
      rfl

theorem cursorOfJson_of_fields {parsed : Json} {v : JsonNumber} {createdAt id : JsString}
    (hv : parsed.field (js "v") = some (.num v))
    (hcreatedAt : parsed.field (js "createdAt") = some (.str createdAt))
    (hid : parsed.field (js "id") = some (.str id)) :
    cursorOfJson parsed =
      if v.isTwo && (parseISOString createdAt).isSome && isUuid id then some { createdAt, id }
      else none := by
  rw [cursorOfJson, hv, hcreatedAt, hid]

theorem cursorOfJson_eq_none {parsed : Json}
    (hno : ∀ (v : JsonNumber) (createdAt id : JsString), parsed.field (js "v") = some (.num v) →
      parsed.field (js "createdAt") = some (.str createdAt) →
      parsed.field (js "id") = some (.str id) → False) :
    cursorOfJson parsed = none := by
  unfold cursorOfJson
  split
  · rename_i v createdAt id hv hcreatedAt hid
    exact (hno v createdAt id hv hcreatedAt hid).elim
  · rfl

/-- **Reading a cursor returns**, for every text. -/
theorem decodeOrNull_eq (hdate : DateParse.Documented dateParse) (value : JsString) :
    decodeOrNull dateParse value = .ok (decodeMessageCursor value) := by
  unfold decodeOrNull tryDecodeMessageCursor decodeMessageCursor
  split_ifs with hvalue
  · rfl
  · cases parseJson (utf8Decode (base64urlDecode value)) with
    | none => rfl
    | some parsed =>
      simp only [Option.bind_some]
      -- three fields of the right types, or nothing
      split
      · rename_i v createdAt id hv hcreatedAt hid
        rw [cursorOfJson_of_fields hv hcreatedAt hid, checkCursor_eq hdate]
        show tryCatch (if v.isTwo = true then _ else _) _ = Except.ok (if (v.isTwo && _ && _) = true
          then _ else _)
        cases v.isTwo <;> rfl
      · rename_i hno
        rw [cursorOfJson_eq_none hno]
        rfl

/-! ## The two halves -/

/-- What comes out of a text is a cursor of a printed date and an accepted id. -/
theorem of_decodeMessageCursor {value : JsString} {cursor : MessageCursor}
    (h : decodeMessageCursor value = some cursor) :
    CanonicalDate cursor.createdAt ∧ isUuid cursor.id = true := by
  unfold decodeMessageCursor at h
  split_ifs at h
  obtain ⟨parsed, -, hcursor⟩ := Option.bind_eq_some_iff.mp h
  unfold cursorOfJson at hcursor
  split at hcursor
  · split_ifs at hcursor with hchecks
    simp only [Bool.and_eq_true] at hchecks
    obtain rfl := Option.some.inj hcursor
    exact ⟨parseISOString_isSome_iff.mp hchecks.1.2, hchecks.2⟩
  · cases hcursor

/-- A cursor of a printed date and an accepted id comes back from its text. -/
theorem decodeMessageCursor_encode_of {cursor : MessageCursor}
    (hdate : CanonicalDate cursor.createdAt) (hid : isUuid cursor.id = true) :
    decodeMessageCursor (encodeMessageCursor cursor) = some cursor := by
  obtain ⟨createdAt, id⟩ := cursor
  obtain ⟨t, ht, rfl⟩ := hdate
  have hlength := length_of_isUuid hid
  rw [decodeMessageCursor_encode_plain ht (plain_of_isUuid hid) (by omega), if_pos hid]

/-- **The codec of cursors.** Every cursor of a printed date and an accepted id is read back, and
its text is accepted in a request; and reading returns for every text, with nothing, or with a
cursor of this kind. -/
theorem cursor_codec (hdate : DateParse.Documented dateParse) :
    (∀ cursor : MessageCursor, CanonicalDate cursor.createdAt → isUuid cursor.id = true →
      decodeOrNull dateParse (encodeMessageCursor cursor) = .ok (some cursor) ∧
        ∀ id limit, getMessageSchema id limit (.text (encodeMessageCursor cursor)) =
          getMessageSchema id limit .absent) ∧
    ∀ value, ∃ result, decodeOrNull dateParse value = .ok result ∧
      ∀ cursor, result = some cursor → CanonicalDate cursor.createdAt ∧ isUuid cursor.id = true ∧
        decodeOrNull dateParse (encodeMessageCursor cursor) = .ok (some cursor) := by
  have hback : ∀ cursor : MessageCursor, CanonicalDate cursor.createdAt →
      isUuid cursor.id = true →
        decodeOrNull dateParse (encodeMessageCursor cursor) = .ok (some cursor) := by
    intro cursor hcanonical hid
    rw [decodeOrNull_eq hdate, decodeMessageCursor_encode_of hcanonical hid]
  refine ⟨?_, ?_⟩
  · intro cursor hcanonical hid
    refine ⟨hback cursor hcanonical hid, fun id limit => ?_⟩
    -- the cursor adds no error
    have herror : cursorError (.text (encodeMessageCursor cursor)) = false := by
      rw [cursorError, decodeMessageCursor_encode_of hcanonical hid]
      rfl
    rw [getMessageSchema, getMessageSchema, herror]
    rfl
  · intro value
    refine ⟨_, decodeOrNull_eq hdate value, fun cursor hcursor => ?_⟩
    obtain ⟨hcanonical, hid⟩ := of_decodeMessageCursor hcursor
    exact ⟨hcanonical, hid, hback cursor hcanonical hid⟩

/-- A cursor of the year -1, under an id in upper case. -/
theorem cursor_codec_sample :
    CanonicalDate (js "-000001-12-31T23:59:59.999Z") ∧
      decodeOrNull parseISOString (encodeMessageCursor ⟨js "-000001-12-31T23:59:59.999Z",
        js "550E8400-E29B-41D4-A716-446655440000"⟩) =
          .ok (some ⟨js "-000001-12-31T23:59:59.999Z",
            js "550E8400-E29B-41D4-A716-446655440000"⟩) := by
  have hcanonical : CanonicalDate (js "-000001-12-31T23:59:59.999Z") :=
    parseISOString_isSome_iff.mp (by decide +kernel)
  exact ⟨hcanonical, ((cursor_codec parseISOString_documented).1
    ⟨js "-000001-12-31T23:59:59.999Z", js "550E8400-E29B-41D4-A716-446655440000"⟩ hcanonical
      (by decide +kernel)).1⟩

end MernChat
