import Mathlib.Algebra.Group.Nat.Defs
import Mathlib.Data.List.Defs

namespace SupportApi

/-- Milliseconds since the epoch. -/
abbrev Time := Int

structure Uuid where
  bits : BitVec 128
  deriving DecidableEq

def Uuid.hex (u : Uuid) : List Char :=
  (List.range 32).map fun i => Nat.digitChar (u.bits.toNat / 16 ^ (31 - i) % 16)

/-- The text PostgreSQL renders: 36 characters, hyphens after 8, 12, 16 and 20 digits. -/
def Uuid.text (u : Uuid) : List Char :=
  u.hex.take 8 ++ '-' :: (u.hex.drop 8).take 4 ++ '-' :: (u.hex.drop 12).take 4 ++
    '-' :: (u.hex.drop 16).take 4 ++ '-' :: u.hex.drop 20

theorem Uuid.length_text (u : Uuid) : u.text.length = 36 := by
  simp [Uuid.text, Uuid.hex]

def hexValue (c : Char) : Option Nat :=
  if '0' ≤ c ∧ c ≤ '9' then some (c.toNat - '0'.toNat)
  else if 'a' ≤ c ∧ c ≤ 'f' then some (c.toNat - 'a'.toNat + 10)
  else if 'A' ≤ c ∧ c ≤ 'F' then some (c.toNat - 'A'.toNat + 10)
  else none

def Uuid.digits (n acc : Nat) : List Char → Option Nat
  | [] => if n = 32 then some acc else none
  | c :: cs =>
    if c = '-' then if 0 < n ∧ n < 32 ∧ n % 4 = 0 ∧ cs.head? ≠ some '-' then digits n acc cs else none
    else match hexValue c with
      | none => none
      | some d => if n < 32 then digits (n + 1) (acc * 16 + d) cs else none

/-- The texts PostgreSQL accepts for a `uuid`, in braces or not. -/
def Uuid.parse (s : String) : Option Uuid :=
  let cs := s.toList
  let inner := if cs.head? = some '{' ∧ cs.getLast? = some '}' then cs.tail.dropLast else cs
  (Uuid.digits 0 0 inner).map fun n => ⟨BitVec.ofNat 128 n⟩

inductive UserRole
  | superAdmin
  | tenantAdmin
  | agent
  deriving DecidableEq

inductive ConversationStatus
  | opened
  | pending
  | resolved
  | closed
  deriving DecidableEq

inductive ConversationPriority
  | low
  | medium
  | high
  | urgent
  deriving DecidableEq

inductive MessageSenderType
  | customer
  | agent
  | system
  deriving DecidableEq

structure Tenant where
  id : Uuid
  name : String
  slug : String
  isActive : Bool
  domain : Option String
  createdAt : Time
  updatedAt : Time
  deriving DecidableEq

/-- The columns of a user that a query selects by default: all but the password. -/
structure User where
  id : Uuid
  tenantId : Option Uuid
  firstName : String
  lastName : String
  email : String
  role : UserRole
  isActive : Bool
  refreshToken : Option String
  createdAt : Time
  updatedAt : Time
  deriving DecidableEq

structure UserRow extends User where
  password : String
  deriving DecidableEq

def User.fullName (user : User) : String := user.firstName ++ " " ++ user.lastName

structure Conversation where
  id : Uuid
  tenantId : Uuid
  subject : String
  description : Option String
  status : ConversationStatus
  priority : ConversationPriority
  assignedAgentId : Option Uuid
  customerEmail : String
  customerName : String
  resolvedAt : Option Time
  claimedAt : Option Time
  createdAt : Time
  updatedAt : Time
  deriving DecidableEq

structure Message where
  id : Uuid
  conversationId : Uuid
  senderId : Option Uuid
  senderType : MessageSenderType
  body : String
  isInternal : Bool
  createdAt : Time
  deriving DecidableEq

/-- What a request ends in when it does not succeed.  `queryFailed` is an error
of PostgreSQL, Redis or the queue that no service turns into one of its own. -/
inductive Exception
  | badRequest (message : String)
  | unauthorized (message : String)
  | forbidden (message : String)
  | notFound (message : String)
  | conflict (message : String)
  | queryFailed
  deriving DecidableEq

end SupportApi
