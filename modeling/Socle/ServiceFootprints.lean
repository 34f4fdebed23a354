import Socle.DirectoryService

/-!
The requests the functions of the directory service make: statements and
pending writes, never a commit, which the routes keep to themselves.
-/

namespace Socle.ServiceFootprints

open Socle.Procedures
open Socle.DirectoryStore
open Socle.DirectoryService

section Makes

variable {α β : Type} {made : Request → Prop} {p : DirectoryProc α} {f : α → DirectoryProc β}

theorem makes_ask_bind {r : Request} {f : Answer r → DirectoryProc β} (hr : made r)
    (hf : ∀ a, Makes made (f a)) : Makes made (ask r >>= f) := makes_request_bind.mpr ⟨hr, hf⟩

theorem makes_ofExcept_bind (x : Except Failure α) (hf : ∀ a, Makes made (f a)) :
    Makes made (Proc.ofExcept x >>= f) := by
  cases x with
  | error e => trivial
  | ok a => exact hf a

theorem makes_asHttp (hp : Makes made p) (status : Nat) (caught : Failure → Option String) :
    Makes made (asHttp status caught p) := by
  refine hp.attempt.bind ?_
  rintro (e | a)
  · dsimp only
    cases caught e <;> trivial
  · trivial

theorem follows_asHttp {σ ℓ ω : Type} {serve : Serve DirectoryInterface σ ℓ ω}
    {allowed : ℓ → Request → Prop} {post : ℓ → α → Prop}
    {l : ℓ} (hp : Follows serve allowed (fun l out => ∀ a, out = .ok a → post l a) l p)
    (status : Nat) (caught : Failure → Option String) :
    Follows serve allowed (fun l out => ∀ a, out = .ok a → post l a) l
      (asHttp status caught p) := by
  refine follows_attempt_bind hp ?_
  rintro l (e | a) hout
  · dsimp only
    cases caught e <;> simp [Follows]
  · intro a' ha'
    exact hout a' ha'

end Makes

/-- No commit, no change of context. -/
def Uncommitted : Request → Prop
  | .commitControl => False
  | .commitTenant => False
  | .pushTenant _ => False
  | _ => True

/-- What the service does short of taking a member off the tenant or adding one
to a team. -/
def Internal : Request → Prop
  | .commitControl => False
  | .commitTenant => False
  | .pushTenant _ => False
  | .deleteMembership _ => False
  | .addTeamMember .. => False
  | _ => True

theorem uncommitted_of_internal (r : Request) (h : Internal r) : Uncommitted r := by
  cases r with
  | commitControl => exact h
  | commitTenant => exact h
  | pushTenant tenantId => exact h
  | _ => trivial

theorem internal_getOneUser (userId : Nat) : Makes Internal (getOneUser userId) := by
  refine makes_ask_bind trivial ?_
  rintro (_ | user) <;> trivial

theorem internal_refuseMember (tenantId : Nat) (email : String) :
    Makes Internal (refuseMember tenantId email) := by
  refine makes_ask_bind trivial ?_
  rintro (_ | existingUser)
  · trivial
  · refine makes_ask_bind trivial fun membership => ?_
    split <;> trivial

theorem internal_createInvitation (settings : Settings) (tenantId : Nat) (email role : String)
    (actorRole : Option Role) (invitedByUserId : Option Nat) :
    Makes Internal (createInvitation settings tenantId email role actorRole invitedByUserId) := by
  refine makes_ofExcept_bind _ fun role => ?_
  split
  · trivial
  refine (internal_refuseMember tenantId email).bind fun _ => ?_
  refine makes_ask_bind trivial fun now => makes_ask_bind trivial fun pending => ?_
  split
  · trivial
  · refine makes_ask_bind trivial fun token => makes_ask_bind trivial fun now => ?_
    exact makes_ask_bind trivial fun invitation => trivial

theorem internal_revokeInvitation (tenantId invitationId : Nat) :
    Makes Internal (revokeInvitation tenantId invitationId) := by
  refine makes_ask_bind trivial ?_
  rintro (_ | invitation)
  · trivial
  dsimp only
  split
  · trivial
  split
  · trivial
  · exact makes_ask_bind trivial fun _ => trivial

theorem internal_invitedUser (invitation : Invitation) (password displayName : Option String) :
    Makes Internal (invitedUser invitation password displayName) := by
  refine makes_ask_bind trivial ?_
  rintro (_ | user)
  · refine makes_ask_bind trivial fun user => ?_
    split
    · exact makes_ask_bind trivial fun _ => trivial
    · trivial
  · have hadopt : Makes Internal (adoptDisplayName user displayName) := by
      unfold adoptDisplayName
      split
      · exact makes_ask_bind trivial fun _ => trivial
      · trivial
    refine hadopt.bind fun user => ?_
    split <;> trivial

theorem internal_acceptInvitation (settings : Settings) (token : String)
    (password displayName : Option String) :
    Makes Internal (acceptInvitation settings token password displayName) := by
  refine makes_ask_bind trivial ?_
  rintro (_ | invitation)
  · trivial
  refine makes_ask_bind trivial fun now => ?_
  split
  · trivial
  refine (internal_invitedUser invitation password displayName).bind fun user => ?_
  refine makes_ask_bind trivial fun membership => ?_
  split
  · trivial
  · refine makes_ask_bind trivial fun _ => makes_ask_bind trivial fun now => ?_
    exact makes_ask_bind trivial fun _ => trivial

theorem internal_changeMemberRole (tenantId userId : Nat) (newRole : String) (actorRole : Role) :
    Makes Internal (changeMemberRole tenantId userId newRole actorRole) := by
  refine makes_ofExcept_bind _ fun newRole => makes_ask_bind trivial ?_
  rintro (_ | membership)
  · trivial
  have hassign : Makes Internal (do
      ask (.setRole membership newRole)
      return { membership with role := newRole }) := makes_ask_bind trivial fun _ => trivial
  dsimp only
  split
  · trivial
  split
  · refine makes_ask_bind trivial fun owners => ?_
    split
    · trivial
    · exact hassign
  · exact hassign

theorem uncommitted_removeMember (tenantId userId : Nat) (actorRole : Role) :
    Makes Uncommitted (removeMember tenantId userId actorRole) := by
  refine makes_ask_bind trivial ?_
  rintro (_ | membership)
  · trivial
  have hdelete : Makes Uncommitted (ask (.deleteMembership membership.id)) :=
    ⟨trivial, fun _ => trivial⟩
  dsimp only
  split
  · split
    · trivial
    · refine makes_ask_bind trivial fun owners => ?_
      split
      · trivial
      · exact hdelete
  · exact hdelete

theorem internal_emailOfTarget (target : Option Membership) (userId : Nat) :
    Makes Internal (emailOfTarget target userId) := by
  cases target with
  | none => trivial
  | some membership => exact (internal_getOneUser userId).bind fun user => trivial

end Socle.ServiceFootprints
