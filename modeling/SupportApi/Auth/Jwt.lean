import SupportApi.Lib.Base64
import SupportApi.Data.Entities

namespace SupportApi

def UserRole.text : UserRole → List Char
  | .superAdmin => "SuperAdmin".toList
  | .tenantAdmin => "TenantAdmin".toList
  | .agent => "Agent".toList

namespace Auth

open Lib

structure JwtConfig where
  accessSecret : String
  refreshSecret : String
  accessExpiresIn : Int
  refreshExpiresIn : Int
  deriving DecidableEq

structure JwtPayload where
  sub : Uuid
  email : String
  role : UserRole
  /-- Left out where it is `undefined`. -/
  tenantId : Option (Option Uuid)
  iat : Int
  exp : Int
  deriving DecidableEq

/-- A token by what it says and the secret it is signed with. -/
structure Jwt where
  payload : JwtPayload
  secret : String
  deriving DecidableEq

def hexDigits (n : Nat) : List Char :=
  [Nat.digitChar (n / 4096 % 16), Nat.digitChar (n / 256 % 16), Nat.digitChar (n / 16 % 16),
    Nat.digitChar (n % 16)]

def jsonChar (c : Char) : List Char :=
  if c = '"' ∨ c = '\\' then ['\\', c]
  else if c = '\n' then ['\\', 'n']
  else if c = '\r' then ['\\', 'r']
  else if c = '\t' then ['\\', 't']
  else if c.toNat = 8 then ['\\', 'b']
  else if c.toNat = 12 then ['\\', 'f']
  else if c.toNat < 32 then '\\' :: 'u' :: hexDigits c.toNat
  else [c]

def jsonString (cs : List Char) : List Char := '"' :: cs.flatMap jsonChar ++ ['"']

def jsonUuid : Option Uuid → List Char
  | none => "null".toList
  | some u => jsonString u.text

def jsonTenantId : Option (Option Uuid) → List Char
  | none => []
  | some tenantId => ",\"tenantId\":".toList ++ jsonUuid tenantId

/-- What comes before the email: the key and the value of `sub`. -/
def subject (sub : Uuid) : List Char := "\x7b\"sub\":\"".toList ++ sub.text ++ ['"']

def JwtPayload.rest (p : JwtPayload) : List Char :=
  ",\"email\":".toList ++ jsonString p.email.toList ++ ",\"role\":".toList ++
    jsonString p.role.text ++ jsonTenantId p.tenantId ++
    ",\"iat\":".toList ++ (toString p.iat).toList ++ ",\"exp\":".toList ++
    (toString p.exp).toList ++ ['}']

def JwtPayload.json (p : JwtPayload) : List Char := subject p.sub ++ p.rest

def header : List Char := "\x7b\"alg\":\"HS256\",\"typ\":\"JWT\"\x7d".toList

/-- The HMAC of a text under a secret, in base64url. -/
abbrev Signature := String → List Char → List Char

def Jwt.signingInput (token : Jwt) : List Char :=
  Base64.encode (utf8 header) ++ '.' :: Base64.encode (utf8 token.payload.json)

def Jwt.text (signature : Signature) (token : Jwt) : List Char :=
  token.signingInput ++ '.' :: signature token.secret token.signingInput

def seconds (now : Time) : Int := now / 1000

def Jwt.expired (token : Jwt) (now : Time) : Bool := token.payload.exp ≤ seconds now

/-- `passport-jwt` with `ignoreExpiration: false`. -/
def Jwt.verify (secret : String) (now : Time) (token : Jwt) : Bool :=
  token.secret = secret && !token.expired now

theorem utf8Size_digitChar (n : Nat) : (Nat.digitChar (n % 16)).utf8Size = 1 := by
  have hn : n % 16 < 16 := Nat.mod_lt n (by decide)
  generalize n % 16 = m at hn
  revert m
  decide

theorem utf8Size_uuid (u : Uuid) : ∀ c ∈ u.text, c.utf8Size = 1 := by
  have hhex : ∀ c ∈ u.hex, c.utf8Size = 1 := by
    simp only [Uuid.hex, List.mem_map]
    rintro c ⟨i, -, rfl⟩
    exact utf8Size_digitChar _
  have hdash : '-'.utf8Size = 1 := by decide
  intro c hc
  simp only [Uuid.text, List.mem_append, List.mem_cons, or_assoc] at hc
  rcases hc with hc | rfl | hc | rfl | hc | rfl | hc | rfl | hc
  · exact hhex c (List.mem_of_mem_take hc)
  · exact hdash
  · exact hhex c (List.mem_of_mem_drop (List.mem_of_mem_take hc))
  · exact hdash
  · exact hhex c (List.mem_of_mem_drop (List.mem_of_mem_take hc))
  · exact hdash
  · exact hhex c (List.mem_of_mem_drop (List.mem_of_mem_take hc))
  · exact hdash
  · exact hhex c (List.mem_of_mem_drop hc)

theorem utf8Size_quoted : ∀ c ∈ "\x7b\"sub\":\"".toList ++ ['"'], c.utf8Size = 1 := by
  have hall : ("\x7b\"sub\":\"".toList ++ ['"']).all (fun c => c.utf8Size = 1) = true := by decide
  exact fun c hc => of_decide_eq_true (List.all_eq_true.mp hall c hc)

theorem subject_eq (sub : Uuid) : subject sub = "\x7b\"sub\":\"".toList ++ sub.text ++ ['"'] := rfl

theorem utf8Size_subject (sub : Uuid) : ∀ c ∈ subject sub, c.utf8Size = 1 := by
  intro c hc
  have hquoted := utf8Size_quoted c
  simp only [subject_eq, List.mem_append] at hc hquoted
  rcases hc with (hc | hc) | hc
  · exact hquoted (Or.inl hc)
  · exact utf8Size_uuid sub c hc
  · exact hquoted (Or.inr hc)

theorem length_subject (sub : Uuid) : (subject sub).length = 45 := by
  simp only [subject_eq, List.length_append, Uuid.length_text]
  rfl

theorem length_utf8_subject (sub : Uuid) : (utf8 (subject sub)).length = 45 :=
  (length_utf8 (utf8Size_subject sub)).trans (length_subject sub)

/-- What every token of a user starts with. -/
def prefixOf (sub : Uuid) : List Char :=
  Base64.encode (utf8 header) ++ '.' :: Base64.encode (utf8 (subject sub))

theorem JwtPayload.encode_json (p : JwtPayload) :
    Base64.encode (utf8 p.json) =
      Base64.encode (utf8 (subject p.sub)) ++ Base64.encode (utf8 p.rest) := by
  have hgroups : 3 ∣ (utf8 (subject p.sub)).length := ⟨15, length_utf8_subject p.sub⟩
  simp only [JwtPayload.json, utf8_append]
  exact Base64.encode_append _ hgroups

theorem Jwt.text_eq (signature : Signature) (token : Jwt) :
    token.text signature = prefixOf token.payload.sub ++
      (Base64.encode (utf8 token.payload.rest) ++
        '.' :: signature token.secret token.signingInput) := by
  have hinput : token.signingInput =
      prefixOf token.payload.sub ++ Base64.encode (utf8 token.payload.rest) := by
    unfold Jwt.signingInput prefixOf
    rw [JwtPayload.encode_json]
    simp
  unfold Jwt.text
  generalize signature token.secret token.signingInput = signed
  rw [hinput, List.append_assoc]

/-- The 72 bytes that bcrypt reads end within the user's id. -/
theorem length_utf8_prefixOf (sub : Uuid) : 72 ≤ (utf8 (prefixOf sub)).length := by
  have hlength : (prefixOf sub).length = 97 := by
    have hgroups : 3 ∣ (utf8 (subject sub)).length := ⟨15, length_utf8_subject sub⟩
    have hheader : (Base64.encode (utf8 header)).length = 36 := by rfl
    rw [prefixOf, List.length_append, List.length_cons, Base64.length_encode hgroups,
      length_utf8_subject, hheader]
  have hbytes := length_le_length_utf8 (prefixOf sub)
  omega

/-- Two tokens of one user agree in every byte that bcrypt reads. -/
theorem take_utf8_text (signature : Signature) {token token' : Jwt}
    (h : token.payload.sub = token'.payload.sub) :
    (utf8 (token.text signature)).take 72 = (utf8 (token'.text signature)).take 72 := by
  have htake : ∀ t : Jwt, (utf8 (t.text signature)).take 72 =
      (utf8 (prefixOf t.payload.sub)).take 72 := by
    intro t
    rw [t.text_eq, utf8_append, List.take_append_of_le_length (length_utf8_prefixOf _)]
  rw [htake, htake, h]

end Auth

end SupportApi
