import MernChat.Observability.Logger

/-!
# Connection URLs in the log

What the first rewriting of `sanitizeString` does to a URL with a password: behind a user the
password is replaced, and without a user the URL stays as it is.

## Main definitions

* `redactFrom`: the first rewriting, from a place on

## Main results

* `exists_redactFrom_user`: a password behind a user is replaced
* `exists_redactFrom_no_user`: without a user it stays
* `redactFrom_append_cons`, `rtakeWhile_redactFrom`: words are rewritten one by one, and end as
  they did
-/

namespace MernChat

open Library

/-! ## The first rewriting -/

/-- The first rewriting, from a place on. -/
def redactFrom (before : Option UInt16) (skip : Nat) (s : JsString) : JsString :=
  replaceFrom (munch connectionPattern) redactedConnection before skip s

theorem deterministic_connectionPattern : Deterministic connectionPattern := by
  simp only [connectionPattern, schemePieces, credentialPieces, List.cons_append, List.nil_append,
    Deterministic, Refuses, beq_eq_false_iff_ne, and_true]
  refine ⟨Or.inr ?_, Or.inr ?_, Or.inr ?_⟩
  · rintro c hc rfl
    exact absurd hc (by decide)
  · rintro c hc rfl
    exact absurd hc (by decide)
  · rintro c hc rfl
    exact absurd hc (by decide)

theorem replaceAll_connectionPattern (s : JsString) :
    replaceAll connectionPattern redactedConnection s = redactFrom none 0 s := by
  rw [replaceAll, matchHere_eq_munch deterministic_connectionPattern, redactFrom]

theorem toNat_of_isLetter {c : UInt16} (h : isLetter c = true) :
    0x41 ≤ c.toNat ∧ c.toNat ≤ 0x5A ∨ 0x61 ≤ c.toNat ∧ c.toNat ≤ 0x7A := by
  simp only [isLetter, toNat_asciiLower, Bool.and_eq_true, decide_eq_true_eq] at h
  split_ifs at h <;> omega

theorem toNat_of_schemeUnit {c : UInt16} (h : schemeUnit c = true) :
    0x2B ≤ c.toNat ∧ c.toNat < 0x80 := by
  simp only [schemeUnit, isDigitUnit, Bool.or_eq_true, Bool.and_eq_true, decide_eq_true_eq,
    beq_iff_eq, ← UInt16.toNat_inj, UInt16.le_iff_toNat_le, UInt16.reduceToNat] at h
  rcases h with (((h | h) | h) | h) | h
  · have := toNat_of_isLetter h
    omega
  all_goals omega

/-- A unit of the classes that have only visible ASCII characters is no white space. -/
theorem not_of_isWhiteSpace {p : UInt16 → Bool}
    (hp : ∀ c, p c = true → 0x21 ≤ c.toNat ∧ c.toNat < 0x80) {d : UInt16}
    (h : isWhiteSpace d = true) : p d = false := by
  rw [Bool.eq_false_iff]
  intro hd
  have hrange := hp d hd
  simp only [isWhiteSpace, Bool.or_eq_true, Bool.and_eq_true, beq_iff_eq,
    ← UInt16.toNat_inj, decide_eq_true_eq, UInt16.le_iff_toNat_le, UInt16.reduceToNat] at h
  omega

/-- No match holds white space. -/
theorem avoids_connectionPattern {d : UInt16} (h : isWhiteSpace d = true) :
    Avoids d connectionPattern := by
  have hunit : ∀ x : UInt16, 0x21 ≤ x.toNat ∧ x.toNat < 0x80 → (d == x) = false := by
    intro x hx
    refine not_of_isWhiteSpace (p := (· == x)) (fun c hc => ?_) h
    rwa [beq_iff_eq.mp hc]
  have hletter : isLetter d = false :=
    not_of_isWhiteSpace (fun c hc => by have := toNat_of_isLetter hc; omega) h
  have hscheme : schemeUnit d = false :=
    not_of_isWhiteSpace (fun c hc => by have := toNat_of_schemeUnit hc; omega) h
  have huser : userUnit d = false := by simp [userUnit, h]
  have hpassword : passwordUnit d = false := by simp [passwordUnit, h]
  exact ⟨hletter, hscheme, hunit _ (by decide), hunit _ (by decide), hunit _ (by decide), huser,
    hunit _ (by decide), hpassword, hunit _ (by decide), trivial⟩

theorem redactFrom_before (before before' : Option UInt16) (skip : Nat) (s : JsString) :
    redactFrom before skip s = redactFrom before' skip s :=
  replaceFrom_before (avoids_connectionPattern (d := 0x20) (by decide)) _ _ _ _

theorem redactFrom_cons_of_none {c : UInt16} {s : JsString} {before : Option UInt16}
    (h : munch connectionPattern before (c :: s) = none) :
    redactFrom before 0 (c :: s) = c :: redactFrom none 0 s := by
  rw [redactFrom, replaceFrom_of_none h]
  exact congrArg (c :: ·) (redactFrom_before _ _ _ _)

/-- A match ends with the at sign of its credentials. -/
theorem flatten_connection {before : Option UInt16} {s : JsString} {texts : List JsString}
    (h : munch connectionPattern before s = some texts) : ∃ t, texts.flatten = t ++ [0x40] := by
  have hpattern : connectionPattern = schemePieces ++
      [.plus userUnit, .one (· == 0x3A), .plus passwordUnit] ++ [.one (· == 0x40)] := rfl
  rw [hpattern] at h
  obtain ⟨t, d, ht, hd⟩ := flatten_munch_concat h
  exact ⟨t, by rw [ht, beq_iff_eq.mp hd]⟩

theorem redactFrom_cons_of_some {c : UInt16} {s : JsString} {before : Option UInt16}
    {texts : List JsString} (h : munch connectionPattern before (c :: s) = some texts) :
    redactFrom before 0 (c :: s) =
      redactedConnection texts ++ redactFrom none (texts.flatten.length - 1) s := by
  obtain ⟨t, ht⟩ := flatten_connection h
  have hlength : texts.flatten.length = t.length + 1 := by
    rw [ht, List.length_append, List.length_singleton]
  rw [redactFrom, replaceFrom, h]
  simp only [hlength, Nat.add_sub_cancel]
  exact congrArg (redactedConnection texts ++ ·) (redactFrom_before _ _ _ _)

section Urls

variable {c : UInt16} {t user pw : JsString} {before : Option UInt16}

/-- Behind a scheme the credentials are matched. -/
theorem munch_scheme (hc : isLetter c = true) (ht : ∀ x ∈ t, schemeUnit x = true)
    (rest : JsString) :
    munch connectionPattern before (c :: (t ++ 0x3A :: 0x2F :: 0x2F :: rest)) =
      (munch credentialPieces (some 0x2F) rest).map fun texts =>
        [c] :: t :: [0x3A] :: [0x2F] :: [0x2F] :: texts := by
  obtain ⟨htake, hdrop⟩ := takeWhile_token ht (d := 0x3A) (by decide) (0x2F :: 0x2F :: rest)
  simp only [connectionPattern, schemePieces, List.cons_append, List.nil_append, munch, hc, if_true,
    htake, hdrop, beq_self_eq_true, Option.map_map]
  rfl

theorem munch_credentials (hne : user ≠ []) (huser : ∀ x ∈ user, userUnit x = true)
    (hpwne : pw ≠ []) (hpw : ∀ x ∈ pw, passwordUnit x = true) (rest : JsString) :
    munch credentialPieces before (user ++ 0x3A :: (pw ++ 0x40 :: rest)) =
      some [user, [0x3A], pw, [0x40]] := by
  obtain ⟨htake, hdrop⟩ := takeWhile_token huser (d := 0x3A) (by decide) (pw ++ 0x40 :: rest)
  obtain ⟨htake', hdrop'⟩ := takeWhile_token hpw (d := 0x40) (by decide) rest
  simp [credentialPieces, munch, htake, hdrop, htake', hdrop', hne, hpwne]

/-- No user, no match. -/
theorem munch_credentials_colon (rest : JsString) :
    munch credentialPieces before (0x3A :: rest) = none := by
  have hcolon : userUnit 0x3A = false := by decide
  simp [credentialPieces, munch, hcolon]

theorem exists_split_of_not_forall {p : UInt16 → Bool} {s : JsString}
    (h : ¬ ∀ x ∈ s, p x = true) :
    ∃ t d q, (∀ x ∈ t, p x = true) ∧ p d = false ∧ s = t ++ d :: q := by
  induction s with
  | nil => exact absurd (fun x hx => nomatch hx) h
  | cons x s ih =>
    by_cases hx : p x = true
    · obtain ⟨t, d, q, ht, hd, rfl⟩ := ih fun hs => h (List.forall_mem_cons.mpr ⟨hx, hs⟩)
      exact ⟨x :: t, d, q, List.forall_mem_cons.mpr ⟨hx, ht⟩, hd, rfl⟩
    · exact ⟨[], x, s, by simp, by simpa using hx, rfl⟩

/-- Only a letter begins a URL. -/
theorem munch_of_not_letter (hc : isLetter c = false) (s : JsString) :
    munch connectionPattern before (c :: s) = none := by
  simp [connectionPattern, schemePieces, munch, hc]

/-- What is matched from a letter on when its scheme is followed by something else. -/
theorem munch_letter {d : UInt16} (hc : isLetter c = true) (ht : ∀ x ∈ t, schemeUnit x = true)
    (hd : schemeUnit d = false) (rest : JsString) :
    munch connectionPattern before (c :: (t ++ d :: rest)) =
      (munch (.one (· == 0x3A) :: .one (· == 0x2F) :: .one (· == 0x2F) :: credentialPieces) none
        (d :: rest)).map fun texts => [c] :: t :: texts := by
  obtain ⟨htake, hdrop⟩ := takeWhile_token ht hd rest
  simp only [connectionPattern, schemePieces, List.cons_append, List.nil_append, munch, hc, if_true,
    htake, hdrop, Option.map_map]
  rfl

/-- In a text without a slash up to an at sign a scheme ends at the at sign at the latest, and no
two slashes follow it. -/
theorem exists_scheme_split {s : JsString} (hs : 0x2F ∉ s) (rest : JsString) :
    ∃ t d q, (∀ x ∈ t, schemeUnit x = true) ∧ schemeUnit d = false ∧
      s ++ 0x40 :: rest = t ++ d :: q ∧ (d = 0x3A → ∀ e, q.head? = some e → e ≠ 0x2F) := by
  induction s with
  | nil => exact ⟨[], 0x40, rest, by simp, by decide, rfl, fun h => by simp at h⟩
  | cons x s ih =>
    rw [List.mem_cons, not_or] at hs
    by_cases hx : schemeUnit x = true
    · obtain ⟨t, d, q, ht, hd, hsplit, hq⟩ := ih hs.2
      exact ⟨x :: t, d, q, List.forall_mem_cons.mpr ⟨hx, ht⟩, hd,
        by rw [List.cons_append, hsplit, List.cons_append], hq⟩
    · refine ⟨[], x, s ++ 0x40 :: rest, by simp, by simpa using hx, rfl, ?_⟩
      rintro - e he rfl
      cases s with
      | nil => simp at he
      | cons y s =>
        obtain rfl := Option.some.inj he
        exact hs.2 List.mem_cons_self

/-- A text without a slash up to an at sign begins no URL. -/
theorem munch_of_no_slash {s : JsString} (hs : 0x2F ∉ s) (rest : JsString) :
    munch connectionPattern before (c :: (s ++ 0x40 :: rest)) = none := by
  by_cases hc : isLetter c = true
  · obtain ⟨t, d, q, ht, hd, hsplit, hq⟩ := exists_scheme_split hs rest
    rw [hsplit, munch_letter hc ht hd]
    by_cases hcolon : d = 0x3A
    · cases q with
      | nil => simp [munch]
      | cons e q => simp [munch, hcolon, hq hcolon e rfl]
    · simp [munch, hcolon]
  · exact munch_of_not_letter (by simpa using hc) _

/-- The credentials of a match end with an at sign. -/
theorem flatten_credentials {s : JsString} {texts : List JsString}
    (h : munch credentialPieces before s = some texts) : ∃ t, texts.flatten = t ++ [0x40] := by
  have hpieces : credentialPieces =
      [.plus userUnit, .one (· == 0x3A), .plus passwordUnit] ++ [.one (· == 0x40)] := rfl
  rw [hpieces] at h
  obtain ⟨t, d, ht, hd⟩ := flatten_munch_concat h
  exact ⟨t, by rw [ht, beq_iff_eq.mp hd]⟩

theorem length_le_of_prefix_append {d : UInt16} {s l r : JsString} (h : s ++ [d] <+: l ++ r)
    (hd : d ∉ r) : (s ++ [d]).length ≤ l.length := by
  by_contra hlt
  rw [not_le, List.length_append, List.length_singleton] at hlt
  have hlast : (l ++ r)[s.length]? = some d := by
    obtain ⟨rest, hrest⟩ := h
    rw [← hrest]
    simp
  rw [List.getElem?_append_right (by omega)] at hlast
  exact hd (List.mem_of_getElem? hlast)

/-- Credentials hold no slash. -/
theorem avoids_credentialPieces : Avoids 0x2F credentialPieces :=
  ⟨by decide, by decide, by decide, by decide, trivial⟩

theorem at_not_mem_scheme {c₀ : UInt16} {t₀ : JsString} (hc₀ : isLetter c₀ = true)
    (ht₀ : ∀ x ∈ t₀, schemeUnit x = true) : 0x40 ∉ c₀ :: (t₀ ++ [0x3A]) := by
  rw [List.mem_cons, List.mem_append, List.mem_singleton]
  rintro (rfl | h | h)
  · exact absurd hc₀ (by decide)
  · exact absurd (ht₀ _ h) (by decide)
  · exact absurd h (by decide)

/-- The credentials of a match before a URL end before those of the URL, since they hold no
slash. -/
theorem munch_credentials_before (hc : isLetter c = true) (ht : ∀ x ∈ t, schemeUnit x = true)
    {c₀ : UInt16} {t₀ : JsString} (hc₀ : isLetter c₀ = true)
    (ht₀ : ∀ x ∈ t₀, schemeUnit x = true) (q : JsString) :
    ∃ found, (∀ rest, munch connectionPattern before (c :: (t ++ 0x3A :: 0x2F :: 0x2F ::
        (q ++ c₀ :: (t₀ ++ 0x3A :: 0x2F :: 0x2F :: rest)))) = found) ∧
      ∀ texts, found = some texts → texts.flatten.length ≤ t.length + q.length + 4 := by
  refine ⟨(munch credentialPieces none (q ++ c₀ :: (t₀ ++ [0x3A]))).map fun texts =>
    [c] :: t :: [0x3A] :: [0x2F] :: [0x2F] :: texts, fun rest => ?_, fun texts htexts => ?_⟩
  · have happend := munch_append avoids_credentialPieces (some 0x2F) none
      (q ++ c₀ :: (t₀ ++ [0x3A])) (0x2F :: rest)
    simp only [List.append_assoc, List.cons_append, List.nil_append] at happend
    rw [munch_scheme hc ht, happend]
  · obtain ⟨credentials, hmatch, rfl⟩ := Option.map_eq_some_iff.mp htexts
    obtain ⟨u, hu⟩ := flatten_credentials hmatch
    have hprefix := isPrefix_munch hmatch
    rw [hu] at hprefix
    have hle := length_le_of_prefix_append hprefix (at_not_mem_scheme hc₀ ht₀)
    simp only [List.flatten_cons, hu, List.length_append, List.length_cons,
      List.length_nil] at hle ⊢
    omega

/-- Before a URL, a match that does not begin in its scheme ends where the URL begins, at the
latest, and does not depend on what follows the scheme. -/
theorem munch_before_scheme {s : JsString} {c₀ : UInt16} {t₀ : JsString}
    (hc₀ : isLetter c₀ = true) (ht₀ : ∀ x ∈ t₀, schemeUnit x = true)
    (h : ¬ (isLetter c = true ∧ ∀ x ∈ s, schemeUnit x = true)) :
    ∃ found, (∀ rest, munch connectionPattern before
        (c :: (s ++ c₀ :: (t₀ ++ 0x3A :: 0x2F :: 0x2F :: rest))) = found) ∧
      ∀ texts, found = some texts → texts.flatten.length ≤ s.length + 1 := by
  by_cases hc : isLetter c = true
  · -- the scheme of the match ends before that of the URL
    obtain ⟨t, d, q, ht, hd, rfl⟩ := exists_split_of_not_forall fun hs => h ⟨hc, hs⟩
    have hslash : (c₀ == 0x2F) = false := by
      rw [beq_eq_false_iff_ne]
      rintro rfl
      exact absurd hc₀ (by decide)
    simp only [List.append_assoc, List.cons_append]
    by_cases hcolon : d = 0x3A
    · subst hcolon
      match q with
      | [] => exact ⟨none, fun rest => by simp [munch_letter hc ht hd, munch, hslash], by simp⟩
      | [e] => exact ⟨none, fun rest => by simp [munch_letter hc ht hd, munch, hslash], by simp⟩
      | e :: e' :: q =>
        by_cases he : e = 0x2F
        · by_cases he' : e' = 0x2F
          · subst he he'
            obtain ⟨found, hfound, hlength⟩ := munch_credentials_before hc ht hc₀ ht₀ q
            refine ⟨found, hfound, fun texts htexts => ?_⟩
            have hle := hlength texts htexts
            simp only [List.length_append, List.length_cons]
            omega
          · exact ⟨none, fun rest => by simp [munch_letter hc ht hd, munch, he'], by simp⟩
        · exact ⟨none, fun rest => by simp [munch_letter hc ht hd, munch, he], by simp⟩
    · exact ⟨none, fun rest => by simp [munch_letter hc ht hd, munch, hcolon], by simp⟩
  · exact ⟨none, fun rest => munch_of_not_letter (by simpa using hc) _, by simp⟩

end Urls

/-! ## What the first rewriting leaves of a URL -/

section Rewriting

variable {ι : Type} {after result : ι → JsString} {c₀ : UInt16} {t₀ : JsString}

/-- Where a URL is rewritten to a text and a result that may depend on what follows its scheme, so
is every text that ends with it. -/
theorem exists_redactFrom_append (hc₀ : isLetter c₀ = true) (ht₀ : ∀ x ∈ t₀, schemeUnit x = true)
    (h : ∀ c t, isLetter c = true → (∀ x ∈ t, schemeUnit x = true) →
      ∃ out, ∀ i, redactFrom none 0 (c :: (t ++ 0x3A :: 0x2F :: 0x2F :: after i)) =
        out ++ result i) {skip : Nat} {s : JsString} (hskip : skip ≤ s.length) :
    ∃ out, ∀ i, redactFrom none skip (s ++ c₀ :: (t₀ ++ 0x3A :: 0x2F :: 0x2F :: after i)) =
      out ++ result i := by
  induction s generalizing skip with
  | nil =>
    obtain rfl := Nat.le_zero.mp hskip
    exact h c₀ t₀ hc₀ ht₀
  | cons c s ih =>
    cases skip with
    | succ skip =>
      obtain ⟨out, hout⟩ := ih (Nat.le_of_succ_le_succ hskip)
      refine ⟨out, fun i => ?_⟩
      rw [List.cons_append, redactFrom, replaceFrom, ← hout i]
      exact redactFrom_before _ _ _ _
    | zero =>
      by_cases hshape : isLetter c = true ∧ ∀ x ∈ s, schemeUnit x = true
      · -- the URL begins here
        have hc₀' : schemeUnit c₀ = true := by simp [schemeUnit, hc₀]
        obtain ⟨out, hout⟩ := h c (s ++ c₀ :: t₀) hshape.1 fun x hx => by
          rcases List.mem_append.mp hx with hx | hx
          · exact hshape.2 x hx
          · rcases List.mem_cons.mp hx with rfl | hx
            · exact hc₀'
            · exact ht₀ x hx
        refine ⟨out, fun i => ?_⟩
        rw [← hout i, List.append_assoc, List.cons_append, List.cons_append]
      · have hexists : ∃ found, (∀ rest, munch connectionPattern none _ = _) ∧ _ :=
          munch_before_scheme hc₀ ht₀ hshape
        obtain ⟨found, hfound, hlength⟩ := hexists
        cases hmatch : found with
        | none =>
          obtain ⟨out, hout⟩ := ih (Nat.zero_le _)
          refine ⟨c :: out, fun i => ?_⟩
          rw [List.cons_append, redactFrom_cons_of_none ((hfound _).trans hmatch), hout i,
            List.cons_append]
        | some texts =>
          -- the match ends before the URL
          have hle := hlength texts hmatch
          obtain ⟨out, hout⟩ := @ih (texts.flatten.length - 1) (by omega)
          refine ⟨redactedConnection texts ++ out, fun i => ?_⟩
          rw [List.cons_append, redactFrom_cons_of_some ((hfound _).trans hmatch), hout i,
            List.append_assoc]

/-- No match begins in a password. -/
theorem redactFrom_password {pw : JsString} (hpw : 0x2F ∉ pw) (rest : JsString) :
    redactFrom none 0 (pw ++ 0x40 :: rest) = pw ++ 0x40 :: redactFrom none 0 rest := by
  induction pw with
  | nil => exact redactFrom_cons_of_none (munch_of_not_letter (by decide) _)
  | cons c pw ih =>
    rw [List.mem_cons, not_or] at hpw
    rw [List.cons_append, redactFrom_cons_of_none (munch_of_no_slash hpw.2 _), ih hpw.2,
      List.cons_append]

/-- No match begins in a URL without a user. -/
theorem redactFrom_no_user {t pw : JsString} (ht : ∀ x ∈ t, schemeUnit x = true)
    (hpw : 0x2F ∉ pw) (rest : JsString) :
    redactFrom none 0 (t ++ 0x3A :: 0x2F :: 0x2F :: 0x3A :: (pw ++ 0x40 :: rest)) =
      t ++ 0x3A :: 0x2F :: 0x2F :: 0x3A :: (pw ++ 0x40 :: redactFrom none 0 rest) := by
  induction t with
  | nil =>
    have hcolon : isLetter 0x3A = false := by decide
    have hslash : isLetter 0x2F = false := by decide
    rw [List.nil_append, List.nil_append, ← redactFrom_password hpw,
      redactFrom_cons_of_none (munch_of_not_letter hcolon _),
      redactFrom_cons_of_none (munch_of_not_letter hslash _),
      redactFrom_cons_of_none (munch_of_not_letter hslash _),
      redactFrom_cons_of_none (munch_of_not_letter hcolon _)]
  | cons c t ih =>
    obtain ⟨hc, ht⟩ := List.forall_mem_cons.mp ht
    have hnone : munch connectionPattern none
        (c :: (t ++ 0x3A :: 0x2F :: 0x2F :: 0x3A :: (pw ++ 0x40 :: rest))) = none := by
      by_cases hletter : isLetter c = true
      · rw [munch_scheme hletter ht, munch_credentials_colon]
        rfl
      · exact munch_of_not_letter (by simpa using hletter) _
    rw [List.cons_append, redactFrom_cons_of_none hnone, ih ht, List.cons_append]

/-- A password behind a user is replaced. -/
theorem exists_redactFrom_user {user : JsString} (hc₀ : isLetter c₀ = true)
    (ht₀ : ∀ x ∈ t₀, schemeUnit x = true) (hne : user ≠ [])
    (huser : ∀ x ∈ user, userUnit x = true) (s rest : JsString) :
    ∃ out, ∀ pw, pw ≠ [] → (∀ x ∈ pw, passwordUnit x = true) →
      redactFrom none 0 (s ++ c₀ :: (t₀ ++ 0x3A :: 0x2F :: 0x2F ::
        (user ++ 0x3A :: (pw ++ 0x40 :: rest)))) = out := by
  let Password := { pw : JsString // pw ≠ [] ∧ ∀ x ∈ pw, passwordUnit x = true }
  have hurl : ∀ c t, isLetter c = true → (∀ x ∈ t, schemeUnit x = true) →
      ∃ out, ∀ pw : Password, redactFrom none 0 (c :: (t ++ 0x3A :: 0x2F :: 0x2F ::
        (user ++ 0x3A :: (pw.1 ++ 0x40 :: rest)))) = out ++ redactFrom none 0 rest := by
    intro c t hc ht
    refine ⟨redactedConnection [[c], t, [0x3A], [0x2F], [0x2F]], fun ⟨pw, hpw, hunits⟩ => ?_⟩
    have hmatch : munch connectionPattern none (c :: (t ++ 0x3A :: 0x2F :: 0x2F ::
        (user ++ 0x3A :: (pw ++ 0x40 :: rest)))) = _ := munch_scheme hc ht _
    rw [munch_credentials hne huser hpw hunits] at hmatch
    have hsplit : c :: (t ++ 0x3A :: 0x2F :: 0x2F :: (user ++ 0x3A :: (pw ++ 0x40 :: rest))) =
        (c :: t ++ 0x3A :: 0x2F :: 0x2F :: (user ++ 0x3A :: (pw ++ [0x40]))) ++ rest := by simp
    rw [hsplit] at hmatch ⊢
    refine (replaceFrom_of_some hmatch (by simp) (by simp)).trans ?_
    exact congrArg (redactedConnection [[c], t, [0x3A], [0x2F], [0x2F]] ++ ·)
      (redactFrom_before _ _ _ _)
  obtain ⟨out, hout⟩ := exists_redactFrom_append hc₀ ht₀ hurl (Nat.zero_le s.length)
  exact ⟨_, fun pw hpw hunits => hout ⟨pw, hpw, hunits⟩⟩

/-- Without a user it stays. -/
theorem exists_redactFrom_no_user (hc₀ : isLetter c₀ = true)
    (ht₀ : ∀ x ∈ t₀, schemeUnit x = true) (s : JsString) :
    ∃ out, ∀ pw rest, (∀ x ∈ pw, passwordUnit x = true) →
      redactFrom none 0 (s ++ c₀ :: (t₀ ++ 0x3A :: 0x2F :: 0x2F ::
        (0x3A :: (pw ++ 0x40 :: rest)))) =
          out ++ 0x3A :: (pw ++ 0x40 :: redactFrom none 0 rest) := by
  let Password := { pw : JsString // ∀ x ∈ pw, passwordUnit x = true }
  have hurl : ∀ c t, isLetter c = true → (∀ x ∈ t, schemeUnit x = true) →
      ∃ out, ∀ i : Password × JsString, redactFrom none 0 (c :: (t ++ 0x3A :: 0x2F :: 0x2F ::
        (0x3A :: (i.1.1 ++ 0x40 :: i.2)))) =
          out ++ 0x3A :: (i.1.1 ++ 0x40 :: redactFrom none 0 i.2) := by
    intro c t hc ht
    refine ⟨c :: (t ++ [0x3A, 0x2F, 0x2F]), fun ⟨⟨pw, hunits⟩, rest⟩ => ?_⟩
    have hslash : 0x2F ∉ pw := fun h => absurd (hunits _ h) (by decide)
    have hscheme : schemeUnit c = true := by simp [schemeUnit, hc]
    have hkept := redactFrom_no_user (List.forall_mem_cons.mpr ⟨hscheme, ht⟩) hslash rest
    rw [List.cons_append] at hkept
    rw [hkept]
    simp
  obtain ⟨out, hout⟩ := exists_redactFrom_append hc₀ ht₀ hurl (Nat.zero_le s.length)
  exact ⟨out, fun pw rest hunits => hout (⟨pw, hunits⟩, rest)⟩

end Rewriting

/-! ## Words -/

/-- The rewriting goes word by word. -/
theorem redactFrom_append_cons {d : UInt16} (hd : isWhiteSpace d = true) (s t : JsString) :
    redactFrom none 0 (s ++ d :: t) = redactFrom none 0 s ++ d :: redactFrom none 0 t := by
  rw [redactFrom, replaceFrom_append_cons (avoids_connectionPattern hd) none none (Nat.zero_le _)]
  exact congrArg (redactFrom none 0 s ++ d :: ·) (redactFrom_before _ _ _ _)

/-- A word stays a word. -/
theorem not_space_redactFrom {s : JsString} (h : ∀ c ∈ s, isWhiteSpace c = false) :
    ∀ c ∈ redactFrom none 0 s, isWhiteSpace c = false := by
  refine forall_mem_replaceFrom (fun before t texts ht hmatch c hc => ?_) 0 h
  rcases List.mem_append.mp hc with hc | hc
  · obtain ⟨text, htext, hc⟩ := List.mem_flatten.mp hc
    exact ht c ((isPrefix_munch hmatch).subset
      (List.mem_flatten.mpr ⟨text, List.mem_of_mem_take htext, hc⟩))
  · exact (by decide +kernel : ∀ c ∈ js "[REDACTED]@", isWhiteSpace c = false) c hc

theorem redactFrom_eq_nil {s : JsString} : redactFrom none 0 s = [] ↔ s = [] := by
  constructor
  · intro h
    cases s with
    | nil => rfl
    | cons c s =>
      cases hmatch : munch connectionPattern none (c :: s) with
      | none =>
        rw [redactFrom_cons_of_none hmatch] at h
        cases h
      | some texts =>
        -- the replacement is not empty
        rw [redactFrom_cons_of_some hmatch, redactedConnection, List.append_assoc] at h
        exact absurd (List.append_eq_nil_iff.mp (List.append_eq_nil_iff.mp h).2).1 (by decide)
  · rintro rfl
    rfl

/-- The last word ends as it did. -/
theorem rtakeWhile_redactFrom (s : JsString) :
    (redactFrom none 0 s).rtakeWhile wordUnit = s.rtakeWhile wordUnit := by
  have hends : ∀ before t texts, munch connectionPattern before t = some texts →
      (∃ u, texts.flatten = u ++ [0x40]) ∧ ∃ u, redactedConnection texts = u ++ [0x40] := by
    intro before t texts hmatch
    refine ⟨flatten_connection hmatch,
      (texts.take schemePieces.length).flatten ++ js "[REDACTED]", ?_⟩
    rw [redactedConnection, List.append_assoc]
    rfl
  exact rtakeWhile_replaceFrom (by decide : wordUnit 0x40 = false) hends none 0 s []

end MernChat
