import MernChat.Observability.Logger

/-!
# What a log entry may depend on

Two trees of metadata that differ under sensitive keys only, at any depth, give the same line.

## Main definitions

* `SameButSensitive`: trees that differ under sensitive keys only

## Main results

* `sanitizeValue_eq`: they are sanitized alike
* `log_non_interfering`: so that nothing under a sensitive key shows in a line
-/

namespace MernChat

mutual

/-- Two trees that differ in the values under sensitive keys only. -/
inductive SameButSensitive : LogValue → LogValue → Prop
  | null : SameButSensitive .null .null
  | bool (b) : SameButSensitive (.bool b) (.bool b)
  | num (n) : SameButSensitive (.num n) (.num n)
  | str (s) : SameButSensitive (.str s) (.str s)
  | arr {elements elements'} : SameElements elements elements' →
      SameButSensitive (.arr elements) (.arr elements')
  | obj {fields fields'} : SameFields fields fields' →
      SameButSensitive (.obj fields) (.obj fields')
  | error (name message stack) {fields fields'} : SameFields fields fields' →
      SameButSensitive (.error name message stack fields) (.error name message stack fields')

inductive SameElements : List LogValue → List LogValue → Prop
  | nil : SameElements [] []
  | cons {value value' elements elements'} : SameButSensitive value value' →
      SameElements elements elements' → SameElements (value :: elements) (value' :: elements')

/-- Fields of the same names, whose values are the same but for sensitive ones, or whose name is
itself sensitive. -/
inductive SameFields : List (JsString × LogValue) → List (JsString × LogValue) → Prop
  | nil : SameFields [] []
  | cons (key) {value value' fields fields'} : SameButSensitive value value' →
      SameFields fields fields' → SameFields ((key, value) :: fields) ((key, value') :: fields')
  | sensitive {key} (value value') {fields fields'} : Sensitive key →
      SameFields fields fields' → SameFields ((key, value) :: fields) ((key, value') :: fields')

end

/-- A value under a sensitive key is redacted, whatever it is. -/
theorem sanitizeValue_of_sensitive {key : JsString} (h : Sensitive key) (value : LogValue) :
    sanitizeValue key value = .str REDACTED := by
  rw [sanitizeValue.eq_def, if_pos h]

mutual

/-- **Trees that differ under sensitive keys only are sanitized alike.** -/
theorem sanitizeValue_eq {value value' : LogValue} (h : SameButSensitive value value')
    (key : JsString) : sanitizeValue key value = sanitizeValue key value' := by
  by_cases hkey : Sensitive key
  · rw [sanitizeValue_of_sensitive hkey, sanitizeValue_of_sensitive hkey]
  · cases h with
    | null => rfl
    | bool b => rfl
    | num n => rfl
    | str s => rfl
    | arr h =>
      -- the elements are under the key of their array
      rw [sanitizeValue, sanitizeValue, sanitizeElements_eq h key]
    | obj h => rw [sanitizeValue, sanitizeValue, sanitizeFields_eq h]
    | error name message stack h => rw [sanitizeValue, sanitizeValue]

theorem sanitizeElements_eq {elements elements' : List LogValue}
    (h : SameElements elements elements') (key : JsString) :
    sanitizeElements key elements = sanitizeElements key elements' := by
  cases h with
  | nil => rfl
  | cons hvalue helements =>
    rw [sanitizeElements, sanitizeElements, sanitizeValue_eq hvalue key,
      sanitizeElements_eq helements key]

theorem sanitizeFields_eq {fields fields' : List (JsString × LogValue)}
    (h : SameFields fields fields') : sanitizeFields fields = sanitizeFields fields' := by
  cases h with
  | nil => rfl
  | cons key hvalue hfields =>
    rw [sanitizeFields, sanitizeFields, sanitizeValue_eq hvalue key, sanitizeFields_eq hfields]
  | sensitive value value' hkey hfields =>
    rw [sanitizeFields, sanitizeFields, sanitizeValue_of_sensitive hkey,
      sanitizeValue_of_sensitive hkey, sanitizeFields_eq hfields]

end

/-- **Redaction is non-interfering**: nothing under a sensitive key changes what is sanitized, or
the line that is written. -/
theorem log_non_interfering {metadata metadata' : LogValue}
    (h : SameButSensitive metadata metadata') :
    (∀ key, sanitizeValue key metadata = sanitizeValue key metadata') ∧
      ∀ numberText config now level message,
        write numberText config now level message metadata =
          write numberText config now level message metadata' := by
  have hsanitized := sanitizeValue_eq h
  refine ⟨hsanitized, fun numberText config now level message => ?_⟩
  rw [write, write, logEntry, logEntry, hsanitized]

/-- A token within an object in an array, and the fields of an error. -/
def sampleMetadata (token : LogValue) : LogValue :=
  .obj [(js "requests", .arr [.obj [(js "Access-Token", token), (js "status", .bool true)]]),
    (js "cause", .error (js "Error") (js "refused") none [(js "secret", token)])]

/-- An array under the key, and a text. -/
theorem log_non_interfering_sample :
    write (fun _ => []) ⟨.debug, js "test"⟩ 0 .error (js "failed")
        (sampleMetadata (.arr [.str (js "a"), .null])) =
      write (fun _ => []) ⟨.debug, js "test"⟩ 0 .error (js "failed")
        (sampleMetadata (.str (js "b"))) := by
  apply (log_non_interfering (.obj (.cons _ (.arr (.cons (.obj ?_) .nil))
    (.cons _ (.error _ _ _ ?_) .nil)))).2
  · exact .sensitive _ _ (by decide) (.cons _ (.bool _) .nil)
  · exact .sensitive _ _ (by decide) .nil

end MernChat
