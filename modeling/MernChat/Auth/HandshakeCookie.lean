import MernChat.Auth.Sessions
import MernChat.Runtime.PercentEncoding

/-!
# The cookie of a handshake

What `getCookie` finds in a `Cookie` header, and that it is the value the server wrote, whatever
other cookies stand around it.

## Main definitions

* `getCookie`: the value of a cookie
* `cookieHeader`: the header of a list of cookies
* `socketMiddleware`: the gate of a socket, from the header on

## Main results

* `getCookie_exact`: the first cookie of a name is read back, a missing one is undefined, and no
  header makes it throw
* `socketMiddleware_accessToken`: a socket is authenticated with the token of its first cookie
-/

namespace MernChat

/-! ## `getCookie` -/

/-- The loop over the parts of the header. -/
def getCookieFrom (cookieName : JsString) : List JsString → Except URIError (Option JsString)
  | [] => .ok none
  | cookie :: cookies =>
    match cookie.findIdx? (· == 0x3D) with
    | none => getCookieFrom cookieName cookies
    | some separatorIndex =>
      let name := trim (cookie.take separatorIndex)
      if name ≠ cookieName then getCookieFrom cookieName cookies
      else
        let value := trim (cookie.drop (separatorIndex + 1))
        if value = [] then .ok none
        else tryCatch ((decodeURIComponent value).map some) fun _ => .ok none

def getCookie (cookieHeader : Option JsString) (cookieName : JsString) :
    Except URIError (Option JsString) :=
  match cookieHeader with
  | none | some [] => .ok none
  | some header => getCookieFrom cookieName (header.splitOn 0x3B)

/-- `name=value`. -/
def cookiePair (cookie : JsString × JsString) : JsString := cookie.1 ++ 0x3D :: cookie.2

/-- The pairs joined with `"; "`. -/
def cookieHeader : List (JsString × JsString) → JsString
  | [] => []
  | [cookie] => cookiePair cookie
  | cookie :: cookies => cookiePair cookie ++ 0x3B :: 0x20 :: cookieHeader cookies

/-- A name without `=`, `;` and white space, and a value without `;`. -/
structure CookieSyntax (cookie : JsString × JsString) : Prop where
  name_equals : 0x3D ∉ cookie.1
  name_semicolon : 0x3B ∉ cookie.1
  name_space : ∀ c ∈ cookie.1, isWhiteSpace c = false
  value_semicolon : 0x3B ∉ cookie.2

/-! ## Parts of a header -/

theorem trim_of_not_space {s : JsString} (h : ∀ c ∈ s, isWhiteSpace c = false) : trim s = s := by
  have hleft : s.dropWhile isWhiteSpace = s := by
    cases s with
    | nil => rfl
    | cons c s => rw [List.dropWhile_cons_of_neg (by simp [h c List.mem_cons_self])]
  rw [trim_eq, hleft, List.rdropWhile_eq_self_iff]
  intro hne
  rw [h _ (List.getLast_mem hne)]
  exact Bool.false_ne_true

theorem trim_space_cons (s : JsString) : trim (0x20 :: s) = trim s := by
  rw [trim_eq, trim_eq, List.dropWhile_cons_of_pos (by decide)]

/-- The parts of a header: each but the first begins with the space of its separator. -/
def cookieParts : List (JsString × JsString) → List JsString
  | [] => [[]]
  | cookie :: cookies => cookiePair cookie :: cookies.map fun cookie => 0x20 :: cookiePair cookie

theorem semicolon_not_mem_cookiePair {cookie : JsString × JsString} (h : CookieSyntax cookie) :
    0x3B ∉ cookiePair cookie := by
  rw [cookiePair, List.mem_append, List.mem_cons, not_or, not_or]
  exact ⟨h.name_semicolon, by decide, h.value_semicolon⟩

theorem splitOn_cookieHeader {cookies : List (JsString × JsString)}
    (h : ∀ cookie ∈ cookies, CookieSyntax cookie) :
    (cookieHeader cookies).splitOn 0x3B = cookieParts cookies := by
  have hmore : ∀ (part : JsString) (cookies : List (JsString × JsString)), 0x3B ∉ part →
      (∀ cookie ∈ cookies, CookieSyntax cookie) →
      (part ++ cookies.flatMap fun cookie => 0x3B :: 0x20 :: cookiePair cookie).splitOn 0x3B =
        part :: cookies.map fun cookie => 0x20 :: cookiePair cookie := by
    intro part cookies hpart h
    induction cookies generalizing part with
    | nil => rw [List.flatMap_nil, List.append_nil, List.splitOn_eq_singleton hpart, List.map_nil]
    | cons cookie cookies ih =>
      obtain ⟨hcookie, hcookies⟩ := List.forall_mem_cons.mp h
      have hnext : 0x3B ∉ (0x20 :: cookiePair cookie : JsString) := by
        rw [List.mem_cons, not_or]
        exact ⟨by decide, semicolon_not_mem_cookiePair hcookie⟩
      rw [List.flatMap_cons, List.cons_append, List.splitOn_append_cons_self_of_not_mem hpart,
        ih _ hnext hcookies, List.map_cons]
  have hheader : ∀ (cookie : JsString × JsString) (cookies : List (JsString × JsString)),
      cookieHeader (cookie :: cookies) = cookiePair cookie ++
        cookies.flatMap fun cookie => 0x3B :: 0x20 :: cookiePair cookie := by
    intro cookie cookies
    induction cookies generalizing cookie with
    | nil => rw [cookieHeader, List.flatMap_nil, List.append_nil]
    | cons next cookies ih =>
      rw [cookieHeader.eq_3 _ _ (by simp), ih, List.flatMap_cons]
      rfl
  cases cookies with
  | nil => rfl
  | cons cookie cookies =>
    obtain ⟨hcookie, hcookies⟩ := List.forall_mem_cons.mp h
    rw [hheader, hmore _ _ (semicolon_not_mem_cookiePair hcookie) hcookies, cookieParts]

/-! ## The loop -/

/-- What the loop returns at a cookie of the name. -/
def cookieValue (value : JsString) : Except URIError (Option JsString) :=
  if trim value = [] then .ok none
  else tryCatch ((decodeURIComponent (trim value)).map some) fun _ => .ok none

/-- A part of the header is taken apart at its first equals sign. -/
theorem getCookieFrom_cons {before cookieName : JsString} {cookie : JsString × JsString}
    (hcookie : CookieSyntax cookie) (hbefore : before = [] ∨ before = [0x20])
    (parts : List JsString) :
    getCookieFrom cookieName ((before ++ cookiePair cookie) :: parts) =
      if cookie.1 ≠ cookieName then getCookieFrom cookieName parts else cookieValue cookie.2 := by
  obtain ⟨name, value⟩ := cookie
  have hindex : (before ++ cookiePair (name, value)).findIdx? (· == 0x3D) =
      some (before ++ name).length := by
    have hnone : (before ++ name).findIdx? (· == 0x3D) = none := by
      rw [List.findIdx?_eq_none_iff]
      intro c hc
      rw [beq_eq_false_iff_ne]
      rintro rfl
      rcases List.mem_append.mp hc with hc | hc
      · rcases hbefore with rfl | rfl
        · cases hc
        · exact absurd hc (by decide)
      · exact hcookie.name_equals hc
    rw [cookiePair, ← List.append_assoc, List.findIdx?_append, hnone, Option.none_or,
      List.findIdx?_cons]
    simp
  have hname : trim (before ++ name) = name := by
    have htrim := trim_of_not_space hcookie.name_space
    rcases hbefore with rfl | rfl
    · exact htrim
    · rw [List.singleton_append, trim_space_cons, htrim]
  have hsplit : before ++ cookiePair (name, value) = (before ++ name) ++ 0x3D :: value := by
    rw [cookiePair, List.append_assoc]
  have htake : (before ++ cookiePair (name, value)).take (before ++ name).length =
      before ++ name := by
    rw [hsplit, List.take_left]
  have hdrop : (before ++ cookiePair (name, value)).drop ((before ++ name).length + 1) =
      value := by
    rw [hsplit, ← List.drop_drop, List.drop_left, List.drop_one, List.tail_cons]
  rw [getCookieFrom, hindex]
  simp only [htake, hdrop, hname, cookieValue]

/-- The loop over all parts stops at the first cookie of the name. -/
theorem getCookieFrom_cookieParts {cookieName : JsString} {cookies : List (JsString × JsString)}
    (h : ∀ cookie ∈ cookies, CookieSyntax cookie) :
    getCookieFrom cookieName (cookieParts cookies) =
      match cookies.find? (·.1 == cookieName) with
      | none => .ok none
      | some cookie => cookieValue cookie.2 := by
  have hloop : ∀ cookies : List (JsString × JsString),
      (∀ cookie ∈ cookies, CookieSyntax cookie) →
      getCookieFrom cookieName (cookies.map fun cookie => [0x20] ++ cookiePair cookie) =
        match cookies.find? (·.1 == cookieName) with
        | none => .ok none
        | some cookie => cookieValue cookie.2 := by
    intro cookies h
    induction cookies with
    | nil => rfl
    | cons cookie cookies ih =>
      obtain ⟨hcookie, hcookies⟩ := List.forall_mem_cons.mp h
      rw [List.map_cons, getCookieFrom_cons hcookie (Or.inr rfl), ih hcookies, List.find?_cons]
      by_cases hname : cookie.1 = cookieName
      · rw [if_neg (not_not_intro hname), beq_iff_eq.mpr hname]
      · rw [if_pos hname, beq_eq_false_iff_ne.mpr hname]
  cases cookies with
  | nil => rfl
  | cons cookie cookies =>
    obtain ⟨hcookie, hcookies⟩ := List.forall_mem_cons.mp h
    rw [cookieParts]
    refine (getCookieFrom_cons hcookie (Or.inl rfl)
      (cookies.map fun cookie => [0x20] ++ cookiePair cookie)).trans ?_
    rw [hloop cookies hcookies, List.find?_cons]
    by_cases hname : cookie.1 = cookieName
    · rw [if_neg (not_not_intro hname), beq_iff_eq.mpr hname]
    · rw [if_pos hname, beq_eq_false_iff_ne.mpr hname]

/-- What is read in the header of a list of cookies. -/
theorem getCookie_cookieHeader {cookies : List (JsString × JsString)}
    (h : ∀ cookie ∈ cookies, CookieSyntax cookie) (cookieName : JsString) :
    getCookie (some (cookieHeader cookies)) cookieName =
      match cookies.find? (·.1 == cookieName) with
      | none => .ok none
      | some cookie => cookieValue cookie.2 := by
  rw [← getCookieFrom_cookieParts h, ← splitOn_cookieHeader h]
  cases hheader : cookieHeader cookies with
  | nil => simp [getCookie, getCookieFrom]
  | cons c header => rfl

/-! ## What the server wrote -/

theorem isWhiteSpace_of_isUnreserved {c : UInt16} (h : isUnreserved c.toNat = true) :
    isWhiteSpace c = false := by
  have hlt := (lt_of_isUnreserved h).1
  have hcases : ∀ n < 0x80, isUnreserved n = true → isWhiteSpace (UInt16.ofNat n) = false := by
    decide
  have hspace := hcases c.toNat hlt h
  rwa [UInt16.ofNat_toNat] at hspace

/-- An encoded value is read back. -/
theorem cookieValue_of_encodeURIComponent {v value : JsString} (hv : v ≠ [])
    (h : encodeURIComponent v = .ok value) : cookieValue value = .ok (some v) := by
  have hspace : ∀ c ∈ value, isWhiteSpace c = false := by
    intro c hc
    rcases unreserved_or_percent h c hc with hc | rfl
    · exact isWhiteSpace_of_isUnreserved hc
    · decide
  rw [cookieValue, trim_of_not_space hspace, if_neg (ne_nil_of_encodeURIComponent h hv),
    decodeURIComponent_encodeURIComponent h]
  rfl

/-- An encoded value can stand in a header. -/
theorem semicolon_not_mem_of_encodeURIComponent {v value : JsString}
    (h : encodeURIComponent v = .ok value) : 0x3B ∉ value := by
  intro hc
  rcases unreserved_or_percent h _ hc with hc | hc
  · exact absurd hc (by decide)
  · exact absurd hc (by decide)

theorem getCookieFrom_returns (cookieName : JsString) (parts : List JsString) :
    ∃ result, getCookieFrom cookieName parts = .ok result := by
  induction parts with
  | nil => exact ⟨none, rfl⟩
  | cons part parts ih =>
    rw [getCookieFrom]
    cases part.findIdx? (· == 0x3D) with
    | none => exact ih
    | some separatorIndex =>
      simp only
      split_ifs
      · exact ih
      · exact ⟨none, rfl⟩
      · -- what `decodeURIComponent` throws is caught
        cases decodeURIComponent (trim (part.drop (separatorIndex + 1))) with
        | ok value => exact ⟨some value, rfl⟩
        | error e => exact ⟨none, rfl⟩

/-- The first cookie of a name. -/
theorem find?_name {before after : List (JsString × JsString)} {name value : JsString}
    (h : ∀ cookie ∈ before, cookie.1 ≠ name) :
    (before ++ (name, value) :: after).find? (·.1 == name) = some (name, value) := by
  have hbefore : before.find? (·.1 == name) = none := by
    rw [List.find?_eq_none]
    intro cookie hc
    rw [beq_iff_eq]
    exact h cookie hc
  rw [List.find?_append, hbefore, List.find?_cons, beq_iff_eq.mpr rfl, Option.none_or]

/-- **Cookies are read as the server wrote them.** The first cookie of a name gives back the text
that was encoded for it, whatever stands around it; without one there is nothing; and no header
makes the function throw. -/
theorem getCookie_exact :
    (∀ before after name value v, (∀ cookie ∈ before ++ (name, value) :: after,
        CookieSyntax cookie) → (∀ cookie ∈ before, cookie.1 ≠ name) → v ≠ [] →
      encodeURIComponent v = .ok value →
      getCookie (some (cookieHeader (before ++ (name, value) :: after))) name = .ok (some v)) ∧
    (∀ v, toWellFormed v = v → ∃ value, encodeURIComponent v = .ok value ∧ 0x3B ∉ value) ∧
    (∀ cookies name, (∀ cookie ∈ cookies, CookieSyntax cookie) →
      (∀ cookie ∈ cookies, cookie.1 ≠ name) →
      getCookie (some (cookieHeader cookies)) name = .ok none) ∧
    ∀ header name, ∃ result, getCookie header name = .ok result := by
  refine ⟨?first, ?encoded, ?missing, ?returns⟩
  case first =>
    intro before after name value v hcookies' hbefore hv hvalue
    rw [getCookie_cookieHeader hcookies', find?_name hbefore]
    exact cookieValue_of_encodeURIComponent hv hvalue
  case encoded =>
    intro v hv
    have hvalue := encodeURIComponent_of_wellFormed hv
    exact ⟨_, hvalue, semicolon_not_mem_of_encodeURIComponent hvalue⟩
  case missing =>
    intro cookies name hcookies' hnames
    rw [getCookie_cookieHeader hcookies',
      List.find?_eq_none.mpr fun cookie hc => by simp [hnames cookie hc]]
  case returns =>
    intro header name
    rcases header with _ | _ | ⟨c, header⟩
    · exact ⟨none, rfl⟩
    · exact ⟨none, rfl⟩
    · exact getCookieFrom_returns name _

/-- The token stands between a value that holds its name, an equals sign and a broken escape, and a
second token. -/
theorem getCookie_exact_sample :
    getCookie (some (js "theme=accessToken=%; accessToken=a%3D%F0%9F%98%80; accessToken=b"))
      (js "accessToken") = .ok (some (js "a=😀")) := by
  apply getCookie_exact.1 [(js "theme", js "accessToken=%")] [(js "accessToken", js "b")]
    (js "accessToken") (js "a%3D%F0%9F%98%80") (js "a=😀")
  · simp only [List.cons_append, List.nil_append, List.forall_mem_cons, List.not_mem_nil,
      false_implies, implies_true, and_true]
    refine ⟨⟨?_, ?_, ?_, ?_⟩, ⟨?_, ?_, ?_, ?_⟩, ?_, ?_, ?_, ?_⟩ <;> decide +kernel
  · simp only [List.forall_mem_cons, List.not_mem_nil, false_implies, implies_true, and_true]
    decide
  · decide
  · decide +kernel

/-! ## The gate -/

/-- `io.use`, from the header on. -/
def socketMiddleware (J : Jwt) (now : Int) (cookie : Option JsString) (db₁ db₂ : AuthDatabase) :
    Except URIError (Except SocketAuthError JsString) :=
  (getCookie cookie (js "accessToken")).map fun token => socketHandshake J now token db₁ db₂

/-- A socket is authenticated by the token of the first cookie `accessToken`, whatever other
cookies its browser sends. -/
theorem socketMiddleware_accessToken {before after : List (JsString × JsString)}
    {token value : JsString} (J : Jwt) (now : Int) (db₁ db₂ : AuthDatabase)
    (hcookies' : ∀ cookie ∈ before ++ (js "accessToken", value) :: after, CookieSyntax cookie)
    (hbefore : ∀ cookie ∈ before, cookie.1 ≠ js "accessToken") (htoken : token ≠ [])
    (hvalue : encodeURIComponent token = .ok value) :
    socketMiddleware J now
      (some (cookieHeader (before ++ (js "accessToken", value) :: after))) db₁ db₂ =
        .ok (socketHandshake J now (some token) db₁ db₂) := by
  rw [socketMiddleware, getCookie_cookieHeader hcookies', find?_name hbefore]
  simp only [cookieValue_of_encodeURIComponent htoken hvalue]
  rfl

end MernChat
