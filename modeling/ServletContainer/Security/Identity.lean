import ServletContainer.Table

namespace ServletContainer

/-!
# Identities

* `Principal` — an authenticated caller.
* `Authority` — whoever tells callers by their credentials.
* `IdentityStore` — the authority that is a table of users with their passwords and roles.
-/

/-- An authenticated caller and the roles it holds. -/
structure Principal where
  name : String
  roles : List String
  deriving DecidableEq, Repr

namespace Principal

/-- Whether the caller holds a role. -/
def hasRole (p : Principal) (role : String) : Bool := p.roles.contains role

/-- The roles without repetitions. -/
def distinctRoles (p : Principal) : List String := p.roles.eraseDups

end Principal

/-- Whoever tells callers by a user name and a password. -/
structure Authority where
  validate? : (name password : String) → Option Principal

/-- What is known of a user. -/
structure Account where
  password : String
  roles : List String
  deriving DecidableEq, Repr

/-- The users by name. -/
abbrev IdentityStore := Table String Account

namespace IdentityStore

/-- No users. -/
def empty : IdentityStore := Table.empty

/-- Adds a user, in place of one of the same name. -/
def addUser (s : IdentityStore) (name password : String) (roles : List String) : IdentityStore :=
  s.insert name ⟨password, roles⟩

/-- Removes a user; reports whether there was one. -/
def removeUser (s : IdentityStore) (name : String) : Bool × IdentityStore :=
  (s.contains name, s.erase name)

/-- The caller with this name and exactly this password. -/
def validate? (s : IdentityStore) (name password : String) : Option Principal :=
  match s.get? name with
  | none => none
  | some account => if account.password = password then some ⟨name, account.roles⟩ else none

theorem validate?_eq_some_iff {s : IdentityStore} {name password : String} {p : Principal} :
    s.validate? name password = some p ↔
      ∃ roles, s.get? name = some ⟨password, roles⟩ ∧ p = ⟨name, roles⟩ := by
  unfold validate?
  cases h : s.get? name with
  | none => simp
  | some account =>
    obtain ⟨pw, roles⟩ := account
    by_cases hp : pw = password
    · simp [hp, eq_comm]
    · simp [hp]

end IdentityStore

instance : Coe IdentityStore Authority := ⟨fun s => ⟨s.validate?⟩⟩

end ServletContainer
