import RateWise.Outbox
import RateWise.SiteMail

set_option autoImplicit false

namespace RateWise

open Interleave
open ReadCommitted

def SiteRequest.mails : SiteRequest → Bool
  | .requestAccountVerification _ _ => true
  | .requestAccountDeletion _ _ => true
  | _ => false

theorem emails_exec (store left : Redis) (c : RedisCmd) (reply : c.Reply) (ran : Redis.exec store c = .ok (reply, left)) :
    store.addedEmails ⊆ left.addedEmails := by
  cases c with
  | sendEmail email =>
      cases ran
      exact List.subset_append_left _ _
  | set key value ex =>
      cases ex with
      | none =>
          cases ran
          exact List.Subset.refl _
      | some seconds =>
          simp only [Redis.exec] at ran
          split at ran
          · cases ran
            exact List.Subset.refl _
          · cases ran
  | _ =>
      cases ran
      exact List.Subset.refl _

theorem queued_permanent (kind : Email → Prop) : Permanent Redis.commands fun store => ∃ email ∈ store.addedEmails, kind email where
  exec store c reply left holds ran := by
    obtain ⟨email, queued, of⟩ := holds
    exact ⟨email, emails_exec store left c reply ran queued, of⟩
  drift store change holds := holds

section Owing

variable (R : RowRule schema) (kind : Email → Prop)

def SendsKind (c : RedisCmd) : Prop := ∃ email, c = .sendEmail email ∧ kind email

theorem mail_owes (opts : TokensFeatureOptions) (id jti recipient : Text)
    (sends : ∀ now, kind ⟨recipient, .signed opts.secret ⟨some opts.purpose, some jti, some (now / 1000),
      some (now / 1000 + opts.expiresIn), TokensService.identity id⟩⟩) :
    Owes R (SendsKind kind)
      (Prog.bind (TokensService.generate opts (TokensService.identity id) jti) fun token => redis (.sendEmail ⟨recipient, token⟩)) := by
  rw [TokensService.generate_identity]
  refine heeds_bind (fun token => kind ⟨recipient, token⟩) _ _ _ ?_ fun token wanted => ?_
  · refine heeds_bind (fun _ => True) _ _ _ ⟨trivial, fun _ => trivial, fun now _ => trivial⟩ fun now _ => sends now
  · refine ⟨trivial, fun _ => trivial, fun reply unsent => absurd ⟨_, rfl, _, rfl, wanted⟩ unsent.2⟩

theorem guarded_owes (route : Route) (caller : Caller) (handler : SessionContext → AuthenticatedUser → Async Unit)
    (owes : ∀ req user, Admitted R.Good route caller user → Owes R (SendsKind kind) (handler req user)) :
    Owes R (SendsKind kind) (guarded route caller handler) := by
  refine heeds_bind _ _ _ _ (heeds_wider _ _ _ (check_access_heeds R route caller) (fun _ _ => trivial) (fun _ _ likely => likely.1)
    fun _ holds => holds) fun reply admitted => ?_
  cases reply with
  | none => trivial
  | some user =>
      cases AuthGuard.signedIn caller.session with
      | none => trivial
      | some req => exact owes req user (admitted user rfl)

theorem request_verification_owes (config : AuthConfig) (user : AuthenticatedUser) (jti : Text)
    (sends : ∀ now, user.status ≠ .active → kind ⟨user.email, linkToken config.accountVerificationToken user.id jti now⟩) :
    Owes R (SendsKind kind) (AuthService.requestAccountVerification config user jti) := by
  unfold AuthService.requestAccountVerification
  cases refused : AuthService.accountIsNotAlreadyVerified user.status with
  | some error => trivial
  | none =>
      refine mail_owes R kind _ _ jti _ fun now => sends now fun active => ?_
      rw [active] at refused
      cases refused

end Owing

section Runs

variable {n : Nat} {hashtext : Text → Int32}

theorem mails_owe (R : RowRule schema) (config : SiteConfig) (request : SiteRequest) (mails : request.mails = true) :
    Owes R (SendsKind fun email => Puts config R.Good request (.sendEmail email)) (request.program config) := by
  cases request with
  | requestAccountVerification caller jti =>
      exact guarded_owes R _ _ caller _ fun _ user admitted => request_verification_owes R _ _ user jti fun now unverified =>
        .mailsVerification caller jti user now admitted unverified
  | requestAccountDeletion caller jti =>
      exact guarded_owes R _ _ caller _ fun _ user admitted => mail_owes R _ _ _ jti _ fun now =>
        .mailsDeletion caller jti user now admitted
  | _ => cases mails

-- A request for a link by email that was answered with success has added the
-- link of this very account to the queue, for its address.
theorem acknowledged_mail_queued (hashtext : Text → Int32) (config : SiteConfig) (requests : Fin n → SiteRequest) (world : World)
    (fresh : FreshAccounts world.db requests) (moves : List (SiteMove hashtext n)) (last : SiteNet hashtext n)
    (reached : run (siteStart hashtext config requests world) moves = some last) (i : Fin n) (mails : (requests i).mails = true)
    (returned : (last.sessions i).outcome = some (.ok ())) :
    ∃ row opts jti now, OnRecord world.db requests row ∧ Asks config row (requests i) opts jti ∧
      ⟨row.email, linkToken opts row.id jti now⟩ ∈ last.world.store.addedEmails := by
  let R := siteRule config requests (AllGenuine world.db requests (Conferred world.db requests config))
    (genuine_apply world.db requests config _ _ (fun _ genuine => genuine) fresh (conferred_congr world.db requests config)
      (grades_conferred world.db requests config _ fun _ genuine => genuine))
  obtain ⟨email, queued, put⟩ := run_delivered R (SendsKind fun email => Puts config R.Good (requests i) (.sendEmail email))
    (fun store : Redis => ∃ email ∈ store.addedEmails, Puts config R.Good (requests i) (.sendEmail email))
    (fun store c reply left wanted ran => by
      obtain ⟨email, rfl, put⟩ := wanted
      cases ran
      exact ⟨email, List.mem_append_right _ (List.mem_singleton_self _), put⟩)
    (queued_permanent _) _ last moves i ()
    (site_upheld config requests _ _ world (fun row stored => ⟨⟨row, .inl stored, rfl⟩, .inl (.inl stored)⟩) [] _ rfl)
    (mails_owe R config (requests i) mails) reached returned
  obtain ⟨row, opts, jti, now, issued, asks, rfl⟩ := mail_origin world.db requests config i email put
  exact ⟨row, opts, jti, now, issued, asks, queued⟩

end Runs

theorem acknowledged_mail_queued_deletion :
    ∃ last, run (siteStart (fun _ => 0) staffedConfig mailRequests staffedWorld) mailMoves = some last ∧
      (last.sessions 0).outcome = some (.ok ()) ∧
      ∃ row opts jti now, OnRecord staffedWorld.db mailRequests row ∧ Asks staffedConfig row (mailRequests 0) opts jti ∧
        ⟨row.email, linkToken opts row.id jti now⟩ ∈ last.world.store.addedEmails := by
  obtain ⟨last, reached, returned⟩ := run_exists (siteStart (fun _ => 0) staffedConfig mailRequests staffedWorld) mailMoves
    (fun net => (net.sessions 0).outcome = some (.ok ())) (by decide)
  exact ⟨last, reached, returned,
    acknowledged_mail_queued (fun _ => 0) staffedConfig _ staffedWorld mail_fresh mailMoves last reached 0 rfl returned⟩

end RateWise
