import Gatehouse.Proofs.Registry.Refusal
import Gatehouse.Proofs.Texts

/-!
# Requirement — whom the roles of a rule let in

What is given for the roles of a rule either names some or none. If it names some, a rule with them is open to
everyone, or to those whose own role is among them; nobody in particular comes in through the former alone. A value
that cannot be gone through, asked or looked at keeps a rule from being made, and its own fault says so.
-/

namespace Gatehouse

/-! ## 1. Values that stand for all -/

/-- A text that reads `all`, without the blanks around it and in whichever case. -/
def Value.StandsForAll (v : Value) : Prop := ∃ s, v.text? = some s ∧ Name.canonical s = "all"

theorem Name.isWildcard_iff {v : Value} : isWildcard v = true ↔ v.StandsForAll := by
  unfold isWildcard Value.StandsForAll
  cases v.text? with
  | none => simp
  | some s => simp

theorem Name.standsForAll_eq (v : Value) : standsForAll v =
    if v.hidesStripping then .error .wrongKind else .ok (isWildcard v) := rfl

namespace Roles

/-- Roles that are asked one after the other whether they stand for all, until one does: each of them can be. -/
def CanBeAsked : List Value → Prop
  | [] => True
  | role :: rest => role.hidesStripping = false ∧ (role.StandsForAll ∨ CanBeAsked rest)

theorem anyM_standsForAll_cases (roles : List Value) :
    (CanBeAsked roles ∧ roles.anyM Name.standsForAll = .ok (roles.any Name.isWildcard)) ∨
      (¬ CanBeAsked roles ∧ roles.anyM Name.standsForAll = .error .wrongKind) := by
  induction roles with
  | nil => exact .inl ⟨trivial, rfl⟩
  | cons role rest ih =>
    rw [List.anyM, Name.standsForAll_eq, List.any_cons]
    cases hhides : role.hidesStripping with
    | true =>
      refine .inr ⟨fun h => ?_, rfl⟩
      rw [h.1] at hhides
      cases hhides
    | false =>
      cases hwild : Name.isWildcard role with
      | true => exact .inl ⟨⟨hhides, .inl (Name.isWildcard_iff.1 hwild)⟩, rfl⟩
      | false =>
        have hnot : ¬ role.StandsForAll := fun h => by
          rw [Name.isWildcard_iff.2 h] at hwild
          cases hwild
        -- The search goes on, and what becomes of the rest becomes of all.
        refine ih.imp (fun h => ⟨⟨hhides, .inr h.1⟩, h.2⟩) fun h => ⟨fun hall => ?_, h.2⟩
        exact h.1 (hall.2.resolve_left hnot)

/-! ## 2. What is given for roles -/

/-- No roles at all: nothing, or a collection that yields nothing. -/
def AreMissing (v : Value) : Prop :=
  v = .null ∨ (∀ bs, v ≠ .bytes bs) ∧ v.items? = some [] ∧ v.break? = none

/-- One of the roles given stands for all. -/
def OpenToAll (v : Value) : Prop := ∃ role ∈ rolesGiven v, role.StandsForAll

theorem any_isWildcard_iff {v : Value} : (rolesGiven v).any Name.isWildcard = true ↔ OpenToAll v := by
  unfold OpenToAll
  rw [List.any_eq_true]
  simp only [Name.isWildcard_iff]

/-- Roles that can be gone through to their end, asked and, where none stands for all, looked at. -/
structure AreClear (v : Value) : Prop where
  ends : v.break? = none
  asked : CanBeAsked (rolesGiven v)
  shown : OpenToAll v ∨ ∃ form, (Value.tuple (rolesGiven v)).shown? = .ok form

/-- What a value comes to that is given for roles. -/
inductive Reads (v : Value) : Except Fault Roles → Prop where
  | missing (h : AreMissing v) : Reads v (.error (.misconfigured .noRoles))
  | everyone (h : ¬ AreMissing v) (hclear : AreClear v) (hopen : OpenToAll v) : Reads v (.ok .everyone)
  | among (h : ¬ AreMissing v) (hclear : AreClear v) (hclosed : ¬ OpenToAll v) :
      Reads v (.ok (.among (rolesGiven v)))
  | unclear (h : ¬ AreMissing v) (hclear : ¬ AreClear v) {f : Fault}
      (hf : Bring v f ∨ f = .wrongKind ∧ (rolesGiven v).any Value.hidesStripping = true) : Reads v (.error f)

variable {v : Value}

/-- Where no role stands for all, they are looked at as a whole. -/
theorem reads_listed (h : ¬ AreMissing v) (hends : v.break? = none) (hasked : CanBeAsked (rolesGiven v))
    (hclosed : ¬ OpenToAll v) : Reads v (listed (rolesGiven v)) := by
  unfold listed
  cases hshown : (Value.tuple (rolesGiven v)).shown? with
  | ok form => exact .among h ⟨hends, hasked, .inr ⟨form, hshown⟩⟩ hclosed
  | error f =>
    refine .unclear h (fun hclear => ?_) (.inl (.deep hshown))
    obtain hopen | ⟨form, hform⟩ := hclear.shown
    · exact hclosed hopen
    · cases hshown.symm.trans hform

/-- Several roles, or one, that have been gone through to their end. -/
theorem reads_asked (h : ¬ AreMissing v) (hends : v.break? = none) : Reads v (do
    if ← (rolesGiven v).anyM Name.standsForAll then return .everyone else listed (rolesGiven v)) := by
  obtain ⟨hasked, hany⟩ | ⟨hrefused, hany⟩ := anyM_standsForAll_cases (rolesGiven v)
  · rw [hany]
    cases hopen : (rolesGiven v).any Name.isWildcard with
    | true =>
      have hopen := any_isWildcard_iff.1 hopen
      exact .everyone h ⟨hends, hasked, .inl hopen⟩ hopen
    | false =>
      refine reads_listed h hends hasked fun hall => ?_
      rw [any_isWildcard_iff.2 hall] at hopen
      cases hopen
  · have hhides := Name.fault_of_anyM_standsForAll hany
    rw [hany]
    exact .unclear h (fun hclear => hrefused hclear.asked) (.inr hhides)

theorem break?_of_items?_none (h : v.items? = none) : v.break? = none := by
  cases v with
  | once => cases h
  | _ => rfl

/-- A value that stands for all is asked first; it is a text, and so no collection. -/
theorem anyM_of_items?_none (h : v.items? = none) :
    (rolesGiven v).anyM Name.standsForAll = Name.standsForAll v := by
  rw [rolesGiven_of_none h, List.anyM]
  cases Name.standsForAll v with
  | error f => rfl
  | ok wild => cases wild <;> rfl

/-- There is always room for the form of bytes. -/
theorem shown?_tuple_bytes (bs : List UInt8) : ∃ form, (Value.tuple [.bytes bs]).shown? = .ok form := by
  have hbytes : (Value.bytes bs).overflow? 969 = none :=
    Value.overflow?_of_parts_nil rfl (show 1 ≤ 969 by decide)
  have hnone : (Value.tuple [.bytes bs]).overflow? Value.formRoom = none := by
    apply Value.overflow?_eq_none (show 1 ≤ Value.formRoom by decide)
    intro part hpart
    rw [List.mem_singleton.1 hpart]
    exact hbytes
  unfold Value.shown?
  rw [hnone]
  exact ⟨_, rfl⟩

/-- Roles are not missing where there is one. -/
theorem not_areMissing_of_mem {role : Value} (hrole : role ∈ rolesGiven v) (hnull : v ≠ .null) : ¬ AreMissing v := by
  rintro (h | ⟨hbytes, hnone, -⟩)
  · exact hnull h
  · rw [rolesGiven_of_items? hbytes hnone] at hrole
    cases hrole

/-- Only texts stand for all, whatever else has one for its value. -/
theorem not_openToAll_of_text?_none (hitems : rolesGiven v = [v]) (htext : v.text? = none) : ¬ OpenToAll v := by
  rintro ⟨role, hrole, s, hs, -⟩
  rw [hitems] at hrole
  cases List.mem_singleton.1 hrole
  rw [htext] at hs
  cases hs

theorem reads_read (v : Value) : Reads v (read v) := by
  unfold read
  split
  · exact .missing (.inl rfl)
  · -- Bytes are one role, which is not even asked.
    rename_i bs
    have hclosed : ¬ OpenToAll (.bytes bs) := not_openToAll_of_text?_none rfl rfl
    have hclear : AreClear (.bytes bs) := ⟨rfl, ⟨rfl, .inr trivial⟩, .inr (shown?_tuple_bytes bs)⟩
    exact .among (not_areMissing_of_mem (.head _) nofun) hclear hclosed
  · rename_i hnull hbytes
    cases hitems : v.items? with
    | none =>
      -- Anything else that is no collection is one role, too, and is asked.
      have hself : v ∈ rolesGiven v := by
        rw [rolesGiven_of_none hitems]
        exact .head _
      have hreads := reads_asked (not_areMissing_of_mem hself hnull) (break?_of_items?_none hitems)
      rw [anyM_of_items?_none hitems, rolesGiven_of_none hitems] at hreads
      exact hreads
    | some items =>
      have hgiven : rolesGiven v = items := rolesGiven_of_items? (fun bs hb => hbytes bs hb) hitems
      rw [Name.standsForAll_of_items? hitems]
      dsimp only
      -- A collection is gone through first; what it yields counts only if that comes to its end.
      cases hbreak : v.break? with
      | some b =>
        have hsome : ¬ AreMissing v := by
          rintro (h | ⟨-, -, h⟩)
          · exact hnull h
          · rw [hbreak] at h
            cases h
        have hunclear : ¬ AreClear v := fun hclear => by
          rw [hclear.ends] at hbreak
          cases hbreak
        cases b with
        | invalid issues => exact .unclear hsome hunclear (.inl (.refused hbreak))
        | _ => exact .unclear hsome hunclear (.inl (.broken hbreak))
      | none =>
        cases items with
        | nil => exact .missing (.inr ⟨fun bs hb => hbytes bs hb, hitems, hbreak⟩)
        | cons role rest =>
          have hfirst : role ∈ rolesGiven v := by
            rw [hgiven]
            exact .head _
          have hreads := reads_asked (not_areMissing_of_mem hfirst hnull) hbreak
          rw [hgiven] at hreads
          exact hreads

theorem admitsRole_iff {user : Value} : AdmitsRole (rolesGiven v) user ↔
    OpenToAll v ∨ user ≠ .null ∧ ∃ own, user.role? = some own ∧
      ∃ role ∈ rolesGiven v, Value.equals role own = true := by
  unfold AdmitsRole OpenToAll
  constructor
  · rintro ⟨role, hrole, hwild | ⟨hnull, own, hown, hequal⟩⟩
    · exact .inl ⟨role, hrole, Name.isWildcard_iff.1 hwild⟩
    · exact .inr ⟨hnull, own, hown, role, hrole, hequal⟩
  · rintro (⟨role, hrole, hwild⟩ | ⟨hnull, own, hown, role, hrole, hequal⟩)
    · exact ⟨role, hrole, .inl (Name.isWildcard_iff.2 hwild)⟩
    · exact ⟨role, hrole, .inr ⟨hnull, own, hown, hequal⟩⟩

end Roles

/-! ## 3. Rules with these roles -/

namespace Rule

open Roles (AreMissing AreClear OpenToAll)

variable {guard : Guard Condition} {objectId : Value} {condition : Option Condition} {key : String}
  (hguard : readGuard guard = .ok condition) (hkey : readObjectId objectId = .ok key)

include hguard hkey

/-- With a condition and a key that can be read, a rule is what its roles are. -/
theorem make_eq_map (serial : Nat) (v : Value) :
    make serial v guard objectId = (Roles.read v).map fun roles => ⟨serial, roles, condition, key⟩ := by
  unfold make
  cases Roles.read v with
  | ok roles =>
    dsimp only
    rw [bind_of_eq_ok hguard, bind_of_eq_ok hkey]
    rfl
  | error f =>
    cases f with
    | invalid issues =>
      -- Refused roles are reported once nothing else is found amiss.
      unfold refuse
      rw [hguard, hkey]
      rfl
    | _ => rfl

omit hguard hkey in
/-- Only of clear roles a rule is made. -/
theorem areClear_of_make {serial : Nat} {v : Value} {r : Rule} (h : make serial v guard objectId = .ok r) :
    AreClear v := by
  obtain ⟨-, hread, -⟩ := read_of_make h
  have hreads := Roles.reads_read v
  rw [hread] at hreads
  generalize r.roles = roles at hreads
  cases hreads with
  | everyone _ hclear => exact hclear
  | among _ hclear => exact hclear

/-- What is asked of a user by the roles of a rule. A rule without any is refused; what can be gone through, asked and
looked at makes a rule that lets in everyone if some role stands for all, and else those whose own role is equal to one
of them, so that nobody in particular comes in through the former alone; and anything else fails with a fault of its
own. A text and bytes are one role each, and neither bytes nor members with a text for their value stand for all. -/
theorem make_requirement (serial : Nat) (v : Value) :
    (AreMissing v → make serial v guard objectId = .error (.misconfigured .noRoles)) ∧
    (¬ AreMissing v → AreClear v → ∃ r, make serial v guard objectId = .ok r ∧
      (r.roles = .everyone ↔ OpenToAll v) ∧
      ∀ user : Value, user = .null ∨ user.role?.isSome = true → ∃ covered, r.roles.cover user = .ok covered ∧
        (covered = true ↔ OpenToAll v ∨ user ≠ .null ∧ ∃ own, user.role? = some own ∧
          ∃ role ∈ rolesGiven v, Value.equals role own = true)) ∧
    (¬ AreMissing v → ¬ AreClear v → ∃ f, make serial v guard objectId = .error f ∧
      (Roles.Bring v f ∨ f = .wrongKind ∧ (rolesGiven v).any Value.hidesStripping = true)) ∧
    (∀ s, v.text? = some s → rolesGiven v = [v]) ∧
    (∀ bs, v = .bytes bs → rolesGiven v = [v] ∧ ¬ OpenToAll v) ∧
    (∀ group name value form, v = .member group name value form → rolesGiven v = [v] ∧ ¬ OpenToAll v) := by
  have hreads := Roles.reads_read v
  have hmake := make_eq_map hguard hkey serial v
  refine ⟨fun hmissing => ?_, fun hgiven hclear => ?_, fun hgiven hunclear => ?_, fun s hs => ?_, ?_, ?_⟩
  · generalize Roles.read v = read at hreads hmake
    cases hreads with
    | missing => exact hmake
    | everyone h => exact absurd hmissing h
    | among h => exact absurd hmissing h
    | unclear h => exact absurd hmissing h
  · cases hread : Roles.read v with
    | error f =>
      rw [hread] at hreads
      cases hreads with
      | missing h => exact absurd h hgiven
      | unclear _ h => exact absurd hclear h
    | ok roles =>
      rw [hread] at hreads hmake
      refine ⟨_, hmake, ?_, fun user huser => ?_⟩
      · cases hreads with
        | everyone _ _ hopen => exact ⟨fun _ => hopen, fun _ => rfl⟩
        | among _ _ hclosed => exact ⟨nofun, fun hopen => absurd hopen hclosed⟩
      · obtain ⟨covered, hcover, hiff⟩ := Roles.cover_of_read hread huser
        exact ⟨covered, hcover, hiff.trans Roles.admitsRole_iff⟩
  · generalize Roles.read v = read at hreads hmake
    cases hreads with
    | missing h => exact absurd h hgiven
    | everyone _ h => exact absurd h hunclear
    | among _ h => exact absurd h hunclear
    | @unclear _ _ f hf => exact ⟨f, hmake, hf⟩
  · exact rolesGiven_of_none (items?_of_text? hs)
  · rintro bs rfl
    exact ⟨rfl, Roles.not_openToAll_of_text?_none rfl rfl⟩
  · rintro group name value form rfl
    exact ⟨rfl, Roles.not_openToAll_of_text?_none rfl rfl⟩

omit hguard hkey

/-- Several roles, none of which stands for all. -/
def staffRoles : Value := .list [.text "Admin", .int 3, .bytes [97, 108, 108]]

/-- Somebody whose role is a number as well. -/
def lead : Value := .principal (.int 7) (.intMember "Level" "LEAD" 3) none

theorem make_requirement_staffRoles :
    readGuard .absent = .ok none ∧ readObjectId .null = .ok defaultObjectId ∧ ¬ AreMissing staffRoles ∧
    AreClear staffRoles ∧ ∃ r, make 0 staffRoles .absent .null = .ok r ∧ r.roles ≠ .everyone ∧
      r.roles.cover .null = .ok false ∧ r.roles.cover lead = .ok true := by
  have hgiven : ¬ AreMissing staffRoles := Roles.not_areMissing_of_mem (.head _) nofun
  have hclear : AreClear staffRoles := by
    refine ⟨rfl, ?_, .inr ⟨(Value.tuple (rolesGiven staffRoles)).shown, ?_⟩⟩
    · exact ⟨rfl, .inr ⟨rfl, .inr ⟨rfl, .inr trivial⟩⟩⟩
    · with_unfolding_all rfl
  have hclosed : ¬ OpenToAll staffRoles := fun hopen =>
    absurd (Roles.any_isWildcard_iff.2 hopen) (by decide +kernel)
  obtain ⟨-, hrule, -⟩ := @make_requirement .absent .null none defaultObjectId rfl rfl 0 staffRoles
  obtain ⟨r, hmake, heveryone, hcover⟩ := hrule hgiven hclear
  refine ⟨rfl, rfl, hgiven, hclear, r, hmake, fun h => hclosed (heveryone.1 h), ?_, ?_⟩
  · obtain ⟨covered, hcovered, hiff⟩ := hcover .null (.inl rfl)
    have hfalse : covered = false := by
      rw [Bool.eq_false_iff, ne_eq, hiff]
      rintro (hopen | ⟨hnull, -⟩)
      · exact hclosed hopen
      · exact hnull rfl
    rw [hcovered, hfalse]
  · obtain ⟨covered, hcovered, hiff⟩ := hcover lead (.inr rfl)
    have htrue : covered = true :=
      hiff.2 (.inr ⟨nofun, _, rfl, .int 3, .tail _ (.head _), by decide +kernel⟩)
    rw [hcovered, htrue]

/-- One role, behind which the sequence of them breaks off. -/
def cutOffRoles : Value := .once [.text "admin"] (some (.invalid [("id", .missing)]))

/-- A member whose value is a number inside of so many lists. -/
def buriedRole : Value := .member "Role" "ADMIN" (Value.nested (.int 1) 3000) "plain"

/-- A text that hides what strips it, behind another one. -/
def hidingRoles : Value := .list [.text "x", .textMember "E" "strip" "admin"]

/-- Roles are there, but no rule comes of them: their sequence breaks off, they cannot be shown, or cannot be asked. -/
theorem make_unclear_roles :
    (¬ AreMissing cutOffRoles ∧ ¬ ∃ r, make 0 cutOffRoles .absent .null = .ok r) ∧
    (¬ AreMissing buriedRole ∧ ¬ ∃ r, make 0 buriedRole .absent .null = .ok r) ∧
    (¬ AreMissing hidingRoles ∧ ¬ ∃ r, make 0 hidingRoles .absent .null = .ok r) := by
  refine ⟨⟨Roles.not_areMissing_of_mem (.head _) nofun, ?_⟩, ⟨Roles.not_areMissing_of_mem (.head _) nofun, ?_⟩,
    Roles.not_areMissing_of_mem (.head _) nofun, ?_⟩
  · rintro ⟨r, hmake⟩
    cases (areClear_of_make hmake).ends
  · rintro ⟨r, hmake⟩
    have hclosed : ¬ OpenToAll buriedRole := Roles.not_openToAll_of_text?_none rfl rfl
    -- The member takes room of its own inside of the tuple, and so leaves less to its value.
    have hvalue : (Value.nested (.int 1) 3000).overflow? 966 = some .forms := Value.overflow?_nested (by decide)
    have hmember : (buriedRole.overflow? 969).isSome :=
      Value.isSome_overflow?_of_mem_parts (.head _) (Option.isSome_of_eq_some hvalue)
    have htuple : ((Value.tuple (rolesGiven buriedRole)).overflow? Value.formRoom).isSome :=
      Value.isSome_overflow?_of_mem_parts (.head _) hmember
    obtain ⟨d, hd⟩ := Option.isSome_iff_exists.1 htuple
    obtain hopen | ⟨form, hform⟩ := (areClear_of_make hmake).shown
    · exact hclosed hopen
    · unfold Value.shown? at hform
      rw [hd] at hform
      cases hform
  · rintro ⟨r, hmake⟩
    obtain ⟨-, hwild | ⟨hasked, -⟩⟩ := (areClear_of_make hmake).asked
    · exact absurd (Name.isWildcard_iff.2 hwild) (by decide +kernel)
    · revert hasked
      decide

end Rule

end Gatehouse
