import RateWise.SitePolicy

set_option autoImplicit false

namespace RateWise

open Interleave
open ReadCommitted

def Route.Serves (route : Route) (row : Account) : Prop :=
  ∃ statuses roles, Reflector.getAllAndOverride route.metadata.accountStatus = some statuses ∧
    Reflector.getAllAndOverride route.metadata.roles = some roles ∧ row.status ∈ statuses ∧ ∃ role ∈ roles, role ∈ row.roles

theorem protected_route (route : Route) (closed : AuthGuard.isPublic route.metadata = false) :
    ∃ statuses roles, Reflector.getAllAndOverride route.metadata.accountStatus = some statuses ∧ .active ∈ statuses ∧
      Reflector.getAllAndOverride route.metadata.roles = some roles := by
  cases route <;> first | exact ⟨_, _, rfl, by decide, rfl⟩ | cases closed

theorem serves_iff (route : Route) (closed : AuthGuard.isPublic route.metadata = false) (row : Account) :
    route.Serves row ↔ AccountStatusGuard.canActivate .graphql route.metadata (some (authenticatedUser row)) = .ok () ∧
      RolesGuard.canActivate .graphql route.metadata (some (authenticatedUser row)) = .ok () := by
  obtain ⟨status, roles⟩ := route_public route
  rw [closed] at status roles
  rw [status_passes _ status row, roles_pass _ roles row]
  obtain ⟨allowed, required, given, active, named⟩ := protected_route route closed
  constructor
  · rintro ⟨statuses, asked, first, second, listed, role⟩
    exact ⟨⟨statuses, first, .inl listed⟩, asked, second, role⟩
  · rintro ⟨⟨statuses, first, listed⟩, asked, second, role⟩
    rw [given, Option.some.injEq] at first
    subst first
    refine ⟨allowed, asked, given, second, ?_, role⟩
    rcases listed with among | same
    · exact among
    · exact same ▸ active

variable {hashtext : Text → Int32}

theorem check_access_yields (route : Route) (caller : Caller) (world : World) (ids : AccountIds world.db)
    (closed : AuthGuard.isPublic route.metadata = false) :
    Yields (engine hashtext) (checkAccess route caller) world none fun result _ _ => result ≠ .ok none ∧
      ∀ user, result = .ok (some user) ↔ ∃ row, user = authenticatedUser row ∧ Names world caller.session row ∧ route.Serves row := by
  simp only [checkAccess, AuthGuard.canActivateHandler, closed]
  cases signed : AuthGuard.signedIn caller.session with
  | none =>
      refine ⟨fun impossible => (by cases impossible), fun user => iff_of_false (fun impossible => by cases impossible) ?_⟩
      rintro ⟨row, -, ⟨req, same, -⟩, -⟩
      rw [signed] at same
      cases same
  | some req =>
      refine yields_bind _ _ _ _ _ (yields_bind _ _ _ _ _ (yields_mono _ _ _ _ _
        (check_session_yields caller.order caller.relationFirst req world ids) ?_))
      intro result left after granted
      cases result with
      | error error =>
          refine ⟨fun impossible => (by cases impossible), fun user => iff_of_false (fun impossible => by cases impossible) ?_⟩
          rintro ⟨row, -, ⟨other, same, names⟩, -⟩
          rw [signed] at same
          cases same
          cases (granted row).mpr names
      | ok user =>
          have only : ∀ row, Names world caller.session row ↔ row = user := by
            intro row
            constructor
            · rintro ⟨other, same, names⟩
              rw [signed] at same
              cases same
              exact (Except.ok.inj ((granted _).mpr names)).symm
            · rintro rfl
              exact ⟨req, signed, (granted _).mp rfl⟩
          have serves := serves_iff route closed user
          show Yields (engine hashtext)
            (Prog.bind (ofExcept (AccountStatusGuard.canActivate .graphql route.metadata (some (authenticatedUser user)))) fun _ =>
              Prog.bind (ofExcept (RolesGuard.canActivate .graphql route.metadata (some (authenticatedUser user)))) fun _ =>
                pure (some (authenticatedUser user))) left after fun result _ _ => result ≠ .ok none ∧ ∀ other,
                  result = .ok (some other) ↔
                    ∃ row, other = authenticatedUser row ∧ Names world caller.session row ∧ route.Serves row
          have refused : ∀ error : Err, ¬ route.Serves user → (Except.error error : Except Err (Option AuthenticatedUser)) ≠ .ok none ∧
              ∀ other, (Except.error error : Except Err (Option AuthenticatedUser)) = .ok (some other) ↔
                ∃ row, other = authenticatedUser row ∧ Names world caller.session row ∧ route.Serves row := by
            refine fun error unserved => ⟨fun impossible => (by cases impossible), fun other =>
              iff_of_false (fun impossible => by cases impossible) ?_⟩
            rintro ⟨row, -, names, served⟩
            rw [only] at names
            exact unserved (names ▸ served)
          cases status : AccountStatusGuard.canActivate .graphql route.metadata (some (authenticatedUser user)) with
          | error error =>
              refine refused error fun served => ?_
              rw [serves, status] at served
              cases served.1
          | ok passed =>
              cases roles : RolesGuard.canActivate .graphql route.metadata (some (authenticatedUser user)) with
              | error error =>
                  refine refused error fun served => ?_
                  rw [serves, roles] at served
                  cases served.2
              | ok passed =>
                  refine ⟨fun impossible => (by cases impossible), fun other => ?_⟩
                  constructor
                  · intro same
                    cases same
                    exact ⟨user, rfl, (only user).mpr rfl, serves.mpr ⟨status, roles⟩⟩
                  · rintro ⟨row, rfl, names, -⟩
                    rw [only] at names
                    rw [names]
                    rfl

theorem routes_admit_exactly (hashtext : Text → Int32) (route : Route) (caller : Caller) (world : World)
    (ids : AccountIds world.db) :
    (((checkAccess route caller).solo (engine hashtext) world none).1 = .ok none ↔ route.metadata = .marked) ∧
    ∀ user, ((checkAccess route caller).solo (engine hashtext) world none).1 = .ok (some user) ↔
      route.metadata ≠ .marked ∧ ∃ row, user = authenticatedUser row ∧ Names world caller.session row ∧ route.Serves row := by
  have marked : route.metadata = .marked ↔ AuthGuard.isPublic route.metadata = true := by
    cases route <;> first | exact iff_of_true rfl rfl | exact iff_of_false (by decide) (by decide)
  cases shown : AuthGuard.isPublic route.metadata with
  | true =>
      have open_ := marked.mpr shown
      rw [public_admitted route caller open_]
      exact ⟨iff_of_true rfl open_, fun user => iff_of_false (fun impossible => by cases impossible) fun both => both.1 open_⟩
  | false =>
      have closed : route.metadata ≠ .marked := fun same => by
        rw [marked, shown] at same
        cases same
      obtain ⟨some_, exact_⟩ := @check_access_yields hashtext route caller world ids shown
      exact ⟨iff_of_false some_ closed, fun user => (exact_ user).trans (and_iff_right closed).symm⟩

theorem routes_admit_exactly_rita :
    ((checkAccess .createReview ⟨some reviewerSession, .listed, true⟩).solo (engine fun _ => 0) signedInWorld none).1 =
      .ok (some (authenticatedUser reviewer)) := by
  refine ((routes_admit_exactly (fun _ => 0) .createReview _ signedInWorld (by simp [AccountIds, signedInWorld])).2 _).mpr
    ⟨by decide, reviewer, rfl, ⟨⟨⟨"s1".toList, "s1".toList⟩, reviewerId.text⟩, rfl, ?_⟩, [.active], [.reviewer], rfl, rfl,
      by decide, .reviewer, by decide, by decide⟩
  exact ⟨by decide, by decide, by decide, by decide, by decide⟩

end RateWise
