import DreamWeaver.Foundations.IsoDate
import DreamWeaver.Foundations.JsValue
import DreamWeaver.Foundations.KeyedTable

/-! # Families

`FamilyService` and its repository (`api/src/infrastructure/SupabaseFamilyRepository.ts`) over the tables `families`
and `family_members` (`supabase/migrations/20260128000000_init_schema.sql`), and the routes that use them
(`api/src/routes/family.ts`). A user may create families and be invited to others, while a lookup expects one
membership: it finds the family of those who are in one only. -/

namespace DreamWeaver.Families

/-! ## Families and their tables -/

/-- `FamilyMember['role']` -/
inductive FamilyRole where
  | parent
  | child
  | grandparent
  | caregiver
  deriving DecidableEq

/-- `FamilyMember` -/
structure FamilyMember (Id : Type) where
  userId : Id
  role : FamilyRole
  permissions : List Text
  deriving DecidableEq

/-- `Family` -/
structure Family (Id : Type) where
  id : Id
  name : Text
  members : List (FamilyMember Id)
  createdAt : Time
  deriving DecidableEq

/-- A row of `families`. -/
structure FamilyRow (Id : Type) where
  id : Id
  name : Text
  createdAt : Time

/-- A row of `family_members`. -/
structure MemberRow (Id : Type) where
  familyId : Id
  userId : Id
  role : FamilyRole
  permissions : List Text

/-- The primary key of a membership. -/
def MemberRow.key {Id : Type} (row : MemberRow Id) : Id × Id := (row.familyId, row.userId)

/-- The tables, with their primary keys and the reference of a membership to its family. -/
structure FamilyTables (Id : Type) where
  families : KeyedTable (@FamilyRow.id Id)
  members : KeyedTable (@MemberRow.key Id)
  references : ∀ row ∈ members.rows, ∃ family ∈ families.rows, family.id = row.familyId

variable {Id : Type} [DecidableEq Id]

/-- `Family.create` -/
def Family.create (id : Id) (name : Text) (creatorId : Id) (now : Time) : Family Id :=
  ⟨id, name, [⟨creatorId, .parent, [lit "admin"]⟩], now⟩

/-- `isMember` -/
def Family.isMember (family : Family Id) (userId : Id) : Bool := family.members.any fun m => m.userId = userId

namespace FamilyTables

/-! ## The repository -/

/-- No families. -/
def empty : FamilyTables Id := ⟨.empty, .empty, fun _ h => (nomatch h)⟩

/-- The upsert of the family in `save`. -/
def saveFamily (t : FamilyTables Id) (row : FamilyRow Id) : FamilyTables Id where
  families := t.families.upsert row
  members := t.members
  references := fun member hmember => by
    obtain ⟨family, hfamily, hid⟩ := t.references member hmember
    by_cases hsame : family.id = row.id
    · exact ⟨row, KeyedTable.mem_upsert.mpr (.inl rfl), hsame.symm.trans hid⟩
    · exact ⟨family, KeyedTable.mem_upsert.mpr (.inr ⟨hfamily, hsame⟩), hid⟩

/-- The upsert of the members of a family in `save`. -/
def saveMembers (t : FamilyTables Id) (family : FamilyRow Id) (hfamily : family ∈ t.families.rows)
    (members : List (FamilyMember Id)) : FamilyTables Id where
  families := t.families
  members := t.members.upsertAll (members.map fun m => ⟨family.id, m.userId, m.role, m.permissions⟩)
  references := fun row hrow => by
    rcases KeyedTable.of_mem_upsertAll hrow with hnew | hold
    · obtain ⟨m, -, rfl⟩ := List.mem_map.mp hnew
      exact ⟨family, hfamily, rfl⟩
    · exact t.references row hold

/-- `save`. The database takes each of the two statements or refuses it. -/
def save (t : FamilyTables Id) (family : Family Id) (familyTaken membersTaken : Bool) :
    FamilyTables Id × Except JsError Unit :=
  if familyTaken then
    let row : FamilyRow Id := ⟨family.id, family.name, family.createdAt⟩
    let t' := t.saveFamily row
    if 0 < family.members.length then
      if membersTaken then (t'.saveMembers row (KeyedTable.mem_upsert.mpr (.inl rfl)) family.members, .ok ())
      else (t', .error ⟨lit "Error", lit "Database error saving family members"⟩)
    else (t', .ok ())
  else (t, .error ⟨lit "Error", lit "Database error saving family"⟩)

/-- `findById`, where the database answers. -/
def findById (t : FamilyTables Id) (id : Id) : Option (Family Id) :=
  (t.families.single fun row => row.id = id).map fun row =>
    ⟨row.id, row.name,
      (t.members.rows.filter fun m => m.familyId = id).map fun m => ⟨m.userId, m.role, m.permissions⟩, row.createdAt⟩

/-- `findByUserId`, where the database answers. -/
def findByUserId (t : FamilyTables Id) (userId : Id) : Option (Family Id) :=
  (t.members.single fun row => row.userId = userId).bind fun row => t.findById row.familyId

/-- `addMember`. The database refuses a membership that is there already, or one of a family that is not there; it
may refuse another one. -/
def addMember (t : FamilyTables Id) (familyId userId : Id) (taken : Bool) : FamilyTables Id × Except JsError Unit :=
  let refused := (t, .error ⟨lit "Error", lit "Failed to add member"⟩)
  if hfamily : taken = true ∧ ∃ family ∈ t.families.rows, family.id = familyId then
    match hinsert : t.members.insert ⟨familyId, userId, .parent, []⟩ with
    | none => refused
    | some members =>
      ({ t with
        members := members
        references := fun row hrow => by
          rw [KeyedTable.rows_insert hinsert] at hrow
          rcases List.mem_cons.mp hrow with rfl | hold
          · exact hfamily.2
          · exact t.references row hold }, .ok ())
  else refused

/-! ## The routes -/

/-- What a route answers. -/
inductive FamilyResponse (Id : Type) where
  | family (family : Family Id)
  | noFamily
  | success
  | failed (status : ℕ) (error : Text)
  deriving DecidableEq

/-- A request of a user: to create a family, under a new id; to see the own one; to invite somebody. What the
database takes is a part of it. -/
inductive FamilyRequest (Id : Type) where
  | create (user : Id) (name : Text) (id : Id) (now : Time) (familyTaken membersTaken : Bool)
  | me (user : Id)
  | invite (user : Id) (targetUserId : Option Id) (found taken : Bool)

/-- The routes of `familyRoute`. -/
def serve (t : FamilyTables Id) : FamilyRequest Id → FamilyTables Id × FamilyResponse Id
  | .create user name id now familyTaken membersTaken =>
    if name.isEmpty then (t, .failed 400 (lit "Name is required"))
    else
      let family := Family.create id name user now
      match t.save family familyTaken membersTaken with
      | (t', .ok _) => (t', .family family)
      | (t', .error _) => (t', .failed 500 (lit "Failed to create family"))
  | .me user =>
    match t.findByUserId user with
    | none => (t, .noFamily)
    | some family => (t, .family family)
  | .invite user targetUserId found taken =>
    match targetUserId with
    | none => (t, .failed 400 (lit "Target User ID required for MVP invite"))
    | some target =>
      -- a lookup that the database does not answer finds nothing
      match if found then t.findByUserId user else none with
      | none => (t, .failed 404 (lit "You are not in a family"))
      | some family =>
        match t.addMember family.id target taken with
        | (t', .ok _) => (t', .success)
        | (t', .error _) => (t', .failed 500 (lit "Failed to invite member"))

/-- The tables after requests. -/
def after (t : FamilyTables Id) (requests : List (FamilyRequest Id)) : FamilyTables Id :=
  requests.foldl (fun t request => (t.serve request).1) t

/-! ## The lookup -/

/-- The memberships of a user. -/
def memberships (t : FamilyTables Id) (userId : Id) : List (MemberRow Id) :=
  t.members.rows.filter fun row => row.userId = userId

/-- **The lookup law** for a user: who is in a family gets one of the own families, and who is in none gets none. -/
def LooksUp (t : FamilyTables Id) (userId : Id) : Prop :=
  match t.findByUserId userId with
  | some family => family.isMember userId = true ∧ ∃ row ∈ t.memberships userId, row.familyId = family.id
  | none => t.memberships userId = []

variable {t : FamilyTables Id} {userId : Id}

/-- The family of a membership is found, with the member. -/
theorem findById_of_member {row : MemberRow Id} (hrow : row ∈ t.members.rows) :
    ∃ family, t.findById row.familyId = some family ∧ family.id = row.familyId ∧
      family.isMember row.userId = true := by
  obtain ⟨found, hfound, hid⟩ := t.references row hrow
  have hsingle : t.families.single (fun family => family.id = row.familyId) = some found :=
    hid ▸ KeyedTable.single_key hfound
  refine ⟨_, by rw [findById, hsingle, Option.map_some], hid, ?_⟩
  rw [Family.isMember, List.any_eq_true]
  refine ⟨⟨row.userId, row.role, row.permissions⟩, List.mem_map.mpr ⟨row, ?_, rfl⟩, decide_eq_true rfl⟩
  exact List.mem_filter.mpr ⟨hrow, decide_eq_true rfl⟩

/-- Whatever the tables are, the lookup works for those who are in one family at most. -/
theorem looksUp_iff : t.LooksUp userId ↔ (t.memberships userId).length ≤ 1 := by
  unfold LooksUp
  cases hsingle : t.members.single fun row => row.userId = userId with
  | none =>
    -- no membership, or several: the lookup finds nothing
    have hfind : t.findByUserId userId = none := by rw [findByUserId, hsingle, Option.bind_none]
    rw [hfind]
    have hnot := (t.members.isSome_single_iff fun row => row.userId = userId).not.mp (by
      simp [hsingle])
    change (t.memberships userId).length ≠ 1 at hnot
    constructor
    · intro hnil
      rw [show t.memberships userId = [] from hnil]
      exact Nat.zero_le 1
    · intro hle
      exact List.length_eq_zero_iff.mp (by omega)
  | some row =>
    obtain ⟨hmem, huser⟩ := KeyedTable.single_eq_some hsingle
    obtain rfl : row.userId = userId := of_decide_eq_true huser
    obtain ⟨family, hfamily, hid, hmember⟩ := findById_of_member hmem
    have hfind : t.findByUserId row.userId = some family := by
      rw [findByUserId, hsingle, Option.bind_some, hfamily]
    have hone := (t.members.isSome_single_iff _).mp (Option.isSome_iff_exists.mpr ⟨row, hsingle⟩)
    rw [hfind]
    exact iff_of_true ⟨hmember, row, List.mem_filter.mpr ⟨hmem, huser⟩, hid.symm⟩ (le_of_eq hone)

/-- **The lookup law**, after any requests: it holds for those who are in one family at most. -/
theorem lookup_iff (requests : List (FamilyRequest Id)) (userId : Id) :
    (empty.after requests).LooksUp userId ↔ ((empty.after requests).memberships userId).length ≤ 1 := looksUp_iff

/-! ### Two families -/

/-- Two users each create a family, and one of them invites the other. -/
def twoFamilies : List (FamilyRequest ℕ) :=
  [.create 1 (lit "Ash") 10 ⟨0, Time.inRange_zero⟩ true true, .create 2 (lit "Birch") 20 ⟨1, Time.inRange_one⟩ true true,
    .invite 1 (some 2) true true]

/-- **No family for those who have two**: the guest is in two families, is told to have none, and cannot invite
anybody any more. -/
theorem guest_has_no_family : ((empty.after twoFamilies).memberships 2).length = 2 ∧
    (empty.after twoFamilies).findByUserId 2 = none ∧ ¬ (empty.after twoFamilies).LooksUp 2 ∧
    ((empty.after twoFamilies).serve (.invite 2 (some 3) true true)).2 =
      .failed 404 (lit "You are not in a family") := by
  have htwo : ((empty.after twoFamilies).memberships 2).length = 2 := by decide +kernel
  have hnone : (empty.after twoFamilies).findByUserId 2 = none := by decide +kernel
  refine ⟨htwo, hnone, fun h => ?_, by decide +kernel⟩
  have hnil : (empty.after twoFamilies).memberships 2 = [] := by
    rw [LooksUp, hnone] at h
    exact h
  rw [hnil] at htwo
  cases htwo

end FamilyTables

end DreamWeaver.Families
