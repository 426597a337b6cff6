import Mathlib.Algebra.Order.Ring.Cast
import Mathlib.Algebra.Order.Ring.Int
import Pulse.Auth.Authenticator
import Pulse.Collections.Delimiter
import Pulse.Js.ParserRoundTrip

/-!
# Round trip of tokens

What `generateToken` signs, `verifyToken` reads back until the token expires, and a
token reaches it unchanged through the query, the `Authorization` header or the
subprotocols. Conversely, an accepted token is a payload with its own signature.
-/

namespace Js.Number

theorem value_ofInt (z : Int) : (ofInt z).value = z := by
  obtain ⟨hexponent, hvalue⟩ := normalize_value (z.natAbs + 1) z.natAbs (Int.le_refl 0)
  rw [Int.toNat_zero, Nat.pow_zero, Nat.mul_one] at hvalue
  have hscaled : ((normalize (z.natAbs + 1) z.natAbs 0).1 : ℚ) *
      10 ^ (normalize (z.natAbs + 1) z.natAbs 0).2 = (z.natAbs : ℚ) := by
    obtain ⟨k, hk⟩ := Int.eq_ofNat_of_zero_le hexponent
    rw [hk] at hvalue ⊢
    rw [zpow_natCast]
    exact_mod_cast hvalue
  simp only [ofInt, value]
  by_cases hz : z < 0
  · rw [if_pos (by simpa using hz), neg_mul, hscaled, Nat.cast_natAbs, abs_of_neg hz]
    simp
  · rw [if_neg (by simpa using hz), hscaled, Nat.cast_natAbs, abs_of_nonneg (not_lt.mp hz)]

theorem le_ofInt (a b : Int) : (ofInt a).le (ofInt b) = decide (a ≤ b) := by
  have hvalues : (ofInt a).le (ofInt b) = decide ((ofInt a).value ≤ (ofInt b).value) := rfl
  rw [hvalues, value_ofInt, value_ofInt, decide_eq_decide, Int.cast_le]

end Js.Number

namespace Pulse

open Js Encoding

namespace Authenticator

variable {rt : TokenRuntime} {secret : String}

theorem dot_notMem_encode (l : List UInt8) : '.' ∉ Base64.encode base64Url l := by
  intro h
  obtain ⟨s, hs, hdigit⟩ := Base64.exists_digit_of_mem_encode base64Url h
  have hdots : ∀ s < 64, base64Url.digit s ≠ '.' := by decide +kernel
  exact hdots s hs hdigit

theorem utf8_injective : Function.Injective utf8 := by
  intro s t h
  have hdata : s.toUTF8.data = t.toUTF8.data := Array.toList_inj.mp h
  exact String.toByteArray_inj.mp (ByteArray.ext hdata)

theorem timingSafeEqual_iff {provided expected : List Char} :
    timingSafeEqual provided expected = true ↔ provided = expected := by
  simp only [timingSafeEqual, Bool.and_eq_true, beq_iff_eq]
  constructor
  · rintro ⟨-, h⟩
    exact String.ofList_injective (utf8_injective h)
  · rintro rfl
    exact ⟨rfl, rfl⟩

theorem splitOn_token {encodedPayload providedSignature : List Char} (h : '.' ∉ encodedPayload)
    (h' : '.' ∉ providedSignature) :
    (encodedPayload ++ '.' :: providedSignature).splitOn '.' =
      [encodedPayload, providedSignature] := by
  have hparts : ∀ part ∈ [encodedPayload, providedSignature], '.' ∉ part := by simp [h, h']
  have hsplit := List.splitOn_intercalate '.' hparts (by simp)
  simpa using hsplit

/-- A payload with its own signature gets as far as its contents. -/
theorem verifyToken_signed {encodedPayload : List Char} (h : '.' ∉ encodedPayload) (now : Int) :
    verifyToken rt secret now
        (some (String.ofList (encodedPayload ++ '.' :: signature rt secret encodedPayload))) =
      readPayload rt now encodedPayload := by
  have hne : String.ofList (encodedPayload ++ '.' :: signature rt secret encodedPayload) ≠ "" := by
    intro hempty
    have hlist := congrArg String.toList hempty
    simp at hlist
  have hsplit : (encodedPayload ++ '.' :: signature rt secret encodedPayload).splitOn '.' =
      [encodedPayload, signature rt secret encodedPayload] :=
    splitOn_token h (dot_notMem_encode _)
  simp only [verifyToken, if_neg hne, String.toList_ofList, hsplit, timingSafeEqual_iff, if_true]

/-- Both times of a payload are safe integers. -/
def SafeTimes (payload : TokenPayload) : Prop :=
  payload.iat.natAbs ≤ 9007199254740991 ∧ payload.exp.natAbs ≤ 9007199254740991

theorem regular_toJson (rt : TokenRuntime) {payload : TokenPayload} (h : SafeTimes payload) :
    Regular rt.nearest (TokenPayload.toJson payload) := by
  have hnumber : ∀ z : Int, z.natAbs ≤ 9007199254740991 →
      (Number.ofInt z).Double rt.nearest := by
    intro z hz m hm
    have hreread : (Number.ofInt z).reread = .num (.ofInt z) := reparse_ofInt z
    obtain rfl : Number.ofInt z = m := by simpa [hreread] using hm
    exact ⟨Number.normalize_normal _ z.natAbs 0 (Nat.lt_succ_self _), rt.nearest_ofInt z hz⟩
  have hroles : ∀ roles : List String, RegularElements rt.nearest (roles.map .str) := by
    intro roles
    induction roles with
    | nil => trivial
    | cons role rest ih => exact ⟨trivial, ih⟩
  refine ⟨?_, trivial, hroles payload.roles, hnumber _ h.1, hnumber _ h.2, trivial⟩
  have hnames : (["userId", "roles", "iat", "exp"] : List String).Pairwise
      fun k k' => k ≠ k' ∧ Fields.precedes k' k = false := by decide +kernel
  exact Fields.ordered_iff.mpr hnames

theorem reparse_toJson (payload : TokenPayload) :
    reparse (TokenPayload.toJson payload) = TokenPayload.toJson payload := by
  have hroles : reparseElements (payload.roles.map .str) = payload.roles.map .str := by
    rw [reparseElements_eq_map, List.map_map]
    exact List.map_congr_left fun _ _ => rfl
  have hnumber : ∀ z : Int, (Number.ofInt z).reread = .num (.ofInt z) := reparse_ofInt
  simp [TokenPayload.toJson, reparse_obj, reparseFields, reparse, hroles, hnumber]

theorem readPayload_encodePayload {payload : TokenPayload}
    (safe : SafeTimes payload) (now : Int) (named : payload.userId ≠ "") :
    readPayload rt now (encodePayload payload) =
      if payload.exp < now then .error "Token has expired"
      else .ok ⟨payload.userId, .arr (payload.roles.map .str)⟩ := by
  have hparse : parse rt.nearest
      (rt.decodeUtf8 (Base64.decode base64Url (encodePayload payload))) =
        some (TokenPayload.toJson payload) := by
    rw [encodePayload, Base64.decode_encode, rt.decodeUtf8_utf8,
      parse_stringify (regular_toJson rt safe), reparse_toJson]
  have hexpired : isExpired rt now (some (.num (.ofInt payload.exp))) =
      decide (payload.exp < now) := by
    simp only [isExpired, numberOf, Number.le_ofInt, ← decide_not, not_le]
  simp [readPayload, hparse, TokenPayload.toJson, propertyOf, named, hexpired, rolesOf]

/-- A generated token is accepted, with the user and the roles it was generated for, until it
expires; from then on it is refused as expired. -/
theorem verifyToken_generateToken (rt : TokenRuntime) (secret : String) (options : TokenOptions)
    (named : options.userId ≠ "") (iat now : Int)
    (safe : SafeTimes (payloadOf options iat)) :
    verifyToken rt secret now (some (generateToken rt secret options iat)) =
      if iat + options.expiresInMs.getD 3600000 < now then .error "Token has expired"
      else .ok ⟨options.userId, .arr ((options.roles.getD ["user"]).map .str)⟩ := by
  have hdot : '.' ∉ encodePayload (payloadOf options iat) := dot_notMem_encode _
  rw [generateToken, verifyToken_signed hdot]
  exact readPayload_encodePayload safe now named

/-- The ways in which a request carries a token: the first place that names one counts. -/
inductive Carries (token : String) : AuthRequest → Prop
  | query (authorization secWebSocketProtocol : Option String) :
      Carries token ⟨some token, authorization, secWebSocketProtocol⟩
  | bearer {queryToken : Option String} (noQuery : queryToken.filter (· ≠ "") = none)
      (secWebSocketProtocol : Option String) :
      Carries token ⟨queryToken, some ("Bearer " ++ token), secWebSocketProtocol⟩
  | protocol {queryToken authorization : Option String} {header : String}
      {before after : List String} (noQuery : queryToken.filter (· ≠ "") = none)
      (noBearer : authorization.bind (afterPrefix "Bearer ") = none)
      (entries : (header.toList.splitOn ',').map (String.ofList ∘ trimChars) =
        before ++ ("token." ++ token) :: after)
      (others : ∀ entry ∈ before, afterPrefix "token." entry = none) :
      Carries token ⟨queryToken, authorization, some header⟩

/-- A character that is left alone by trimming. -/
theorem isWhiteSpace_of_mem_encode {l : List UInt8} {c : Char}
    (h : c ∈ Base64.encode base64Url l) : isWhiteSpace c = false := by
  obtain ⟨s, hs, rfl⟩ := Base64.exists_digit_of_mem_encode base64Url h
  have hspaces : ∀ s < 64, isWhiteSpace (base64Url.digit s) = false := by decide +kernel
  exact hspaces s hs

theorem trim_generateToken (rt : TokenRuntime) (secret : String) (options : TokenOptions)
    (iat : Int) : trim (generateToken rt secret options iat) =
      generateToken rt secret options iat := by
  refine trim_of_forall fun c hc => ?_
  simp only [generateToken, String.toList_ofList, List.mem_append, List.mem_cons] at hc
  obtain hpayload | rfl | hsignature := hc
  · exact isWhiteSpace_of_mem_encode hpayload
  · decide
  · exact isWhiteSpace_of_mem_encode hsignature

theorem generateToken_ne_empty (rt : TokenRuntime) (secret : String) (options : TokenOptions)
    (iat : Int) : generateToken rt secret options iat ≠ "" := by
  intro h
  have hlist := congrArg String.toList h
  simp [generateToken] at hlist

theorem afterPrefix_append (start s : String) : afterPrefix start (start ++ s) = some s := by
  simp [afterPrefix]

theorem extractToken_of_carries {token : String} {req : AuthRequest} (h : Carries token req)
    (trimmed : trim token = token) (nonempty : token ≠ "") : extractToken req = some token := by
  cases h with
  | query authorization secWebSocketProtocol =>
      have hquery : (some token).filter (· ≠ "") = some token :=
        Option.filter_some_pos (by simpa using nonempty)
      simp only [extractToken, hquery]
  | bearer noQuery secWebSocketProtocol =>
      simp only [extractToken, noQuery, bearerToken, Option.bind_some, afterPrefix_append,
        Option.map_some, trimmed]
  | @protocol queryToken authorization header before after noQuery noBearer entries others =>
      have hheader : header ≠ "" := by
        rintro rfl
        have hentries : [""] = before ++ ("token." ++ token) :: after := entries
        have hmem : "token." ++ token ∈ [""] :=
          hentries ▸ List.mem_append_right before List.mem_cons_self
        have hlist := congrArg String.toList (List.mem_singleton.mp hmem)
        simp at hlist
      have hfirst : (before ++ ("token." ++ token) :: after).findSome? (afterPrefix "token.") =
          some token := by
        rw [List.findSome?_append, List.findSome?_eq_none_iff.mpr others, Option.none_or,
          List.findSome?_cons, afterPrefix_append]
      simp only [extractToken, noQuery, bearerToken, noBearer, Option.map_none, protocols,
        if_neg hheader, entries, hfirst]

/-- The whole way of a token: generated for a user, carried by a request, and authenticated
as this user until it expires. -/
theorem authenticateRequest_generateToken (rt : TokenRuntime) (secret : String)
    (options : TokenOptions) (named : options.userId ≠ "") (iat now : Int)
    (safe : SafeTimes (payloadOf options iat)) (req : AuthRequest)
    (carries : Carries (generateToken rt secret options iat) req) :
    authenticateRequest rt secret now req =
      if iat + options.expiresInMs.getD 3600000 < now then .error "Token has expired"
      else .ok ⟨options.userId, .arr ((options.roles.getD ["user"]).map .str)⟩ := by
  rw [authenticateRequest, extractToken_of_carries carries
    (trim_generateToken rt secret options iat) (generateToken_ne_empty rt secret options iat)]
  exact verifyToken_generateToken rt secret options named iat now safe

/-- The platform as it acts on the token of `authenticated_from_header`. -/
def headerRuntime : TokenRuntime where
  hmacSha256 _ _ :=
    [209, 19, 4, 74, 112, 246, 252, 93, 11, 214, 250, 247, 87, 64, 74, 111,
      117, 112, 39, 18, 12, 144, 190, 83, 238, 160, 159, 95, 254, 252, 48, 46]
  decodeUtf8 bytes := (String.fromUTF8? ⟨bytes.toArray⟩).getD ""
  decodeUtf8_utf8 s := by
    have hbytes : (⟨(utf8 s).toArray⟩ : ByteArray) = s.toByteArray := by simp [utf8]
    have hvalid : s.toByteArray.IsValidUTF8 := s.isValidUTF8
    simp only [hbytes, String.fromUTF8?, dif_pos hvalid, Option.getD_some]
    rfl
  nearest n := n
  nearest_ofInt _ _ := rfl
  toNumber _ := none

theorem authenticated_from_header : authenticateRequest headerRuntime "secret" 1000
    ⟨none, some ("Bearer " ++ generateToken headerRuntime "secret" ⟨"ann", none, none⟩ 0), none⟩ =
      .ok ⟨"ann", .arr [.str "user"]⟩ :=
  authenticateRequest_generateToken headerRuntime "secret" ⟨"ann", none, none⟩ (by decide) 0 1000
    ⟨by decide, by decide⟩ _ (.bearer rfl none)

end Authenticator

end Pulse
