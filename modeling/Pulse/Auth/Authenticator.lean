import Pulse.Encoding.Base64
import Pulse.Js.Parser
import Pulse.Redis.Channel

/-!
# Signed tokens

A token is the base 64 text of a payload and of its HMAC, joined by a dot. A token
that was generated is accepted until it expires, whichever of the three places of a
request it comes in; nothing is accepted that does not end with the signature of
what it begins with.
-/

namespace Pulse

open Js Encoding

structure TokenPayload where
  userId : UserId
  roles : List String
  iat : Int
  exp : Int

structure TokenOptions where
  userId : UserId
  roles : Option (List String) := none
  expiresInMs : Option Int := none

/-- What an authenticated request is known by. -/
structure AuthIdentity where
  userId : UserId
  roles : Json

/-- An `AuthResult`, with the error of a rejected token. -/
abbrev AuthResult := Except String AuthIdentity

/-- What `extractToken` reads of an upgrade request. -/
structure AuthRequest where
  /-- The query parameter `token`. -/
  queryToken : Option String := none
  authorization : Option String := none
  secWebSocketProtocol : Option String := none

namespace Authenticator

def base64UrlDigits : List Char :=
  "ABCDEFGHIJKLMNOPQRSTUVWXYZabcdefghijklmnopqrstuvwxyz0123456789-_".toList

/-- Both alphabets are read. -/
def base64UrlValue (c : Char) : Option Nat :=
  if c = '+' then some 62
  else if c = '/' then some 63
  else if c ∈ base64UrlDigits then some (base64UrlDigits.idxOf c)
  else none

/-- The encoding `base64url` of a buffer. -/
def base64Url : Base64.Alphabet where
  digit s := base64UrlDigits.getD s 'A'
  value := base64UrlValue
  value_digit := by decide +kernel

def utf8 (s : String) : List UInt8 := s.toUTF8.data.toList

/-- The platform functions behind tokens. -/
structure TokenRuntime where
  /-- The HMAC-SHA256 of a text under a secret. -/
  hmacSha256 : String → List Char → List UInt8
  /-- `Buffer.toString('utf8')`, which replaces what is no UTF-8. -/
  decodeUtf8 : List UInt8 → String
  decodeUtf8_utf8 : ∀ s, decodeUtf8 (utf8 s) = s
  /-- The double nearest to a decimal, under its shortest decimal. -/
  nearest : Number → Number
  nearest_ofInt : ∀ z : Int, z.natAbs ≤ 9007199254740991 → nearest (.ofInt z) = .ofInt z
  /-- `Number(value)` of a string, an array or an object; `none` is `NaN`. -/
  toNumber : Json → Option Number

def TokenPayload.toJson (payload : TokenPayload) : Json :=
  .obj [("userId", .str payload.userId), ("roles", .arr (payload.roles.map .str)),
    ("iat", .num (.ofInt payload.iat)), ("exp", .num (.ofInt payload.exp))]

def payloadOf (options : TokenOptions) (iat : Int) : TokenPayload :=
  { userId := options.userId
    roles := options.roles.getD ["user"]
    iat
    exp := iat + options.expiresInMs.getD 3600000 }

def encodePayload (payload : TokenPayload) : List Char :=
  Base64.encode base64Url (utf8 (stringify (TokenPayload.toJson payload)))

def signature (rt : TokenRuntime) (secret : String) (encodedPayload : List Char) : List Char :=
  Base64.encode base64Url (rt.hmacSha256 secret encodedPayload)

def generateToken (rt : TokenRuntime) (secret : String) (options : TokenOptions) (iat : Int) :
    String :=
  let encodedPayload := encodePayload (payloadOf options iat)
  String.ofList (encodedPayload ++ '.' :: signature rt secret encodedPayload)

/-- The number a payload property is compared as; `none` is `NaN`. -/
def numberOf (rt : TokenRuntime) : Option Json → Option Number
  | none => none
  | some .null => some (.ofInt 0)
  | some (.bool b) => some (.ofInt (if b then 1 else 0))
  | some (.num n) => some n
  | some v => rt.toNumber v

/-- `Date.now() > payload.exp`. -/
def isExpired (rt : TokenRuntime) (now : Int) (exp : Option Json) : Bool :=
  match numberOf rt exp with
  | some n => !(Number.ofInt now).le n
  | none => false

/-- A property of a parsed value. -/
def propertyOf (payload : Json) (name : String) : Option Json :=
  match payload with
  | .obj fields => Fields.get? fields name
  | _ => none

/-- `payload.roles ?? ['user']`. -/
def rolesOf (payload : Json) : Json :=
  match propertyOf payload "roles" with
  | none | some .null => .arr [.str "user"]
  | some roles => roles

/-- `verifyToken` behind the signature. -/
def readPayload (rt : TokenRuntime) (now : Int) (encodedPayload : List Char) : AuthResult :=
  match parse rt.nearest (rt.decodeUtf8 (Base64.decode base64Url encodedPayload)) with
  | none | some .null => .error "Failed to decode token payload"
  | some payload =>
      match propertyOf payload "userId" with
      | some (.str userId) =>
          if userId = "" then .error "Token missing valid userId"
          else if isExpired rt now (propertyOf payload "exp") then .error "Token has expired"
          else .ok ⟨userId, rolesOf payload⟩
      | _ => .error "Token missing valid userId"

/-- Buffers of one length with the same bytes. -/
def timingSafeEqual (provided expected : List Char) : Bool :=
  let providedBuffer := utf8 (String.ofList provided)
  let expectedBuffer := utf8 (String.ofList expected)
  providedBuffer.length == expectedBuffer.length && providedBuffer == expectedBuffer

def verifyToken (rt : TokenRuntime) (secret : String) (now : Int) (token : Option String) :
    AuthResult :=
  match token with
  | none => .error "Missing authentication token"
  | some token =>
      if token = "" then .error "Missing authentication token"
      else match token.toList.splitOn '.' with
        | [encodedPayload, providedSignature] =>
            if timingSafeEqual providedSignature (signature rt secret encodedPayload) then
              readPayload rt now encodedPayload
            else .error "Invalid token signature"
        | _ => .error "Malformed token structure"

/-- The token of the `Authorization` header. -/
def bearerToken (req : AuthRequest) : Option String :=
  (req.authorization.bind (afterPrefix "Bearer ")).map trim

/-- The entries of the `Sec-WebSocket-Protocol` header. -/
def protocols (req : AuthRequest) : List String :=
  match req.secWebSocketProtocol with
  | none => []
  | some header =>
      if header = "" then [] else (header.toList.splitOn ',').map (String.ofList ∘ trimChars)

def extractToken (req : AuthRequest) : Option String :=
  match req.queryToken.filter (· ≠ "") with
  | some token => some token
  | none =>
      match bearerToken req with
      | some token => some token
      | none => (protocols req).findSome? (afterPrefix "token.")

def authenticateRequest (rt : TokenRuntime) (secret : String) (now : Int) (req : AuthRequest) :
    AuthResult :=
  verifyToken rt secret now (extractToken req)

end Authenticator

end Pulse
