import RateWise.SiteAccounts
import RateWise.SiteStore
import RateWise.TokenHistory

set_option autoImplicit false

namespace RateWise

open Interleave
open ReadCommitted

-- The request asks for a link of this kind for the account: with a session that
-- names it, or by its email.
inductive Asks (config : SiteConfig) (row : Account) : SiteRequest → TokensFeatureOptions → Text → Prop
  | verification (caller : Caller) (jti : Text) (req : SessionContext) (signed : AuthGuard.signedIn caller.session = some req)
      (named : uuidIn req.userId = some row.id) (waits : row.status = .pendingVerification) :
      Asks config row (.requestAccountVerification caller jti) config.auth.accountVerificationToken jti
  | deletion (caller : Caller) (jti : Text) (req : SessionContext) (signed : AuthGuard.signedIn caller.session = some req)
      (named : uuidIn req.userId = some row.id) :
      Asks config row (.requestAccountDeletion caller jti) config.auth.accountDeletionToken jti
  | signOutAll (email : JsString) (jti : Text) (address : row.email = parameter email) :
      Asks config row (.requestSignOutAll email jti) config.signOutAllToken jti

section Origins

variable {n : Nat} (start : Tables) (requests : Fin n → SiteRequest) (config : SiteConfig)

theorem mail_origin (i : Fin n) (email : Email)
    (put : Puts config (AllGenuine start requests (Conferred start requests config)) (requests i) (.sendEmail email)) :
    ∃ row opts jti now, OnRecord start requests row ∧ Asks config row (requests i) opts jti ∧
      email = ⟨row.email, linkToken opts row.id jti now⟩ := by
  generalize asked : requests i = request at put
  cases put with
  | mailsVerification caller jti user now admitted unverified =>
      obtain ⟨row, ⟨rows, genuine, stored⟩, rfl⟩ := admitted.known
      obtain ⟨req, signed, named⟩ := admitted.named
      obtain ⟨statuses, given, listed⟩ := admitted.status
      have pending : row.status = .pendingVerification := by
        have allowed : statuses = [.pendingVerification, .active] := (Option.some.inj given).symm
        subst allowed
        rcases listed with among | active
        · rcases List.mem_cons.mp among with pending | last
          · exact pending
          · exact absurd (List.mem_singleton.mp last) unverified
        · exact absurd active unverified
      have issued : OnRecord start requests row := by
        rcases (genuine row stored).status with issued | granted
        · exact issued
        · rw [pending] at granted
          cases granted
      exact ⟨row, _, jti, now, issued, .verification caller jti req signed named pending, rfl⟩
  | mailsDeletion caller jti user now admitted =>
      obtain ⟨row, ⟨rows, genuine, stored⟩, rfl⟩ := admitted.known
      obtain ⟨req, signed, named⟩ := admitted.named
      obtain ⟨origin, issued, same⟩ := (genuine row stored).issued
      refine ⟨origin, _, jti, now, issued, .deletion caller jti req signed ?_, ?_⟩
      · rw [unstatused_id origin row same]
        exact named
      · rw [unstatused_email origin row same, unstatused_id origin row same]
        rfl
  | mailsSignOutAll address jti row now known named allowed =>
      obtain ⟨rows, genuine, stored⟩ := known
      obtain ⟨origin, issued, same⟩ := (genuine row stored).issued
      refine ⟨origin, _, jti, now, issued, .signOutAll address jti ?_, ?_⟩
      · rw [unstatused_email origin row same]
        exact named
      · rw [unstatused_email origin row same, unstatused_id origin row same]

end Origins

section Runs

variable {n : Nat} {hashtext : Text → Int32}

theorem genuine_backed (config : SiteConfig) (requests : Fin n → SiteRequest) (world : World)
    (fresh : FreshAccounts world.db requests) (moves : List (SiteMove hashtext n)) (last : SiteNet hashtext n)
    (reached : run (siteStart hashtext config requests world) moves = some last) :
    Redis.Backed (fun c => ∃ i, Puts config (AllGenuine world.db requests (Conferred world.db requests config)) (requests i) c)
      world.store last.world.store :=
  (site_backed config requests _ (genuine_apply world.db requests config _ _ (fun _ genuine => genuine) fresh
    (conferred_congr world.db requests config) (grades_conferred world.db requests config _ fun _ genuine => genuine)) world
    (fun row stored => ⟨⟨row, .inl stored, rfl⟩, .inl (.inl stored)⟩) moves last reached).2

theorem mail_reaches_owner (hashtext : Text → Int32) (config : SiteConfig) (requests : Fin n → SiteRequest) (world : World)
    (fresh : FreshAccounts world.db requests) (moves : List (SiteMove hashtext n)) (last : SiteNet hashtext n)
    (reached : run (siteStart hashtext config requests world) moves = some last) (email : Email)
    (queued : email ∈ last.world.store.addedEmails) : email ∈ world.store.addedEmails ∨
      ∃ i row opts jti now, OnRecord world.db requests row ∧ Asks config row (requests i) opts jti ∧
        email = ⟨row.email, linkToken opts row.id jti now⟩ ∧
        (∀ payload, email.token.carries payload → payload.id = row.id.text) ∧
        ∀ stored ∈ last.world.db.accounts, stored.id = row.id → stored.email = email.recipient := by
  rcases (genuine_backed config requests world fresh moves last reached).emails email queued with old | ⟨i, put⟩
  · exact .inl old
  · obtain ⟨row, opts, jti, now, issued, asks, rfl⟩ := mail_origin world.db requests config i email put
    refine .inr ⟨i, row, opts, jti, now, issued, asks, rfl, ?_, fun stored member same => ?_⟩
    · rintro payload ⟨secret, token⟩
      cases token
      exact TokensService.identity_id row.id.text _ rfl
    · obtain ⟨origin, recorded, equal⟩ := (site_genuine config requests world fresh moves last reached stored member).issued
      have ids : origin.id = row.id := (unstatused_id origin stored equal).trans same
      rw [← unstatused_email origin stored equal]
      exact unstatused_email origin row (fresh origin row recorded issued ids)

theorem blacklist_presented (config : SiteConfig) (P : Tables → Prop) (requests : Fin n → SiteRequest) (start store : Redis)
    (backed : Redis.Backed (fun c => ∃ i, Puts config P (requests i) c) start store) (jti : Text) (entry : RedisEntry)
    (found : store.strings (createBlacklistTokenKey jti) = some entry) :
    start.strings (createBlacklistTokenKey jti) = some entry ∨
      ∃ i payload, Presented config (requests i) payload ∧ orUndefined payload.jti = jti := by
  rcases backed.values _ entry found with old | ⟨ex, i, put⟩ | ⟨set, member, i, put⟩
  · exact .inl old
  · generalize keyed : createBlacklistTokenKey jti = key at put
    generalize entry.value = value at put
    generalize asked : requests i = request at put
    cases put with
    | blacklists request payload ttl presented =>
        exact .inr ⟨i, payload, asked ▸ presented, (List.append_cancel_left keyed).symm⟩
  · generalize keyed : createBlacklistTokenKey jti = key at put
    generalize entry.value = value at put
    generalize requests i = request at put
    cases put with
    | signsUp input row req => exact absurd keyed.symm (relation_blacklist_keys _ _)
    | signsIn email password req user known address measured matched => exact absurd keyed.symm (relation_blacklist_keys _ _)

-- A link that was mailed passes its check until it expires, or until a link
-- with its id is presented.
theorem mailed_links_work (hashtext : Text → Int32) (config : SiteConfig) (requests : Fin n → SiteRequest) (world : World)
    (fresh : FreshAccounts world.db requests) (named : config.signOutAllToken.dataInToken = ["id"])
    (moves : List (SiteMove hashtext n)) (last : SiteNet hashtext n)
    (reached : run (siteStart hashtext config requests world) moves = some last) (email : Email)
    (queued : email ∈ last.world.store.addedEmails) (mailed : email ∉ world.store.addedEmails) :
    ∃ i row opts jti now, Asks config row (requests i) opts jti ∧ email = ⟨row.email, linkToken opts row.id jti now⟩ ∧
      (last.world.store.now / 1000 < now / 1000 + opts.expiresIn →
        verifyNow hashtext (fun _ : Unit => opts) last.world.store () email.token = .ok (linkPayload opts row.id jti now) ∨
        world.store.strings (createBlacklistTokenKey jti) ≠ none ∨
        ∃ k payload, Presented config (requests k) payload ∧ orUndefined payload.jti = jti) := by
  have backed := genuine_backed config requests world fresh moves last reached
  rcases backed.emails email queued with old | ⟨i, put⟩
  · exact absurd old mailed
  · obtain ⟨row, opts, jti, now, issued, asks, rfl⟩ := mail_origin world.db requests config i email put
    refine ⟨i, row, opts, jti, now, asks, rfl, fun alive => ?_⟩
    have required : opts.dataInToken = ["id"] := by
      generalize requests i = request at asks
      cases asks with
      | verification => rfl
      | deletion => rfl
      | signOutAll => exact named
    cases found : last.world.store.strings (createBlacklistTokenKey jti) with
    | none =>
        refine .inl ((verify_ok_iff _ () _ _).mpr ⟨rfl, TokensService.identity_active row.id.text _ rfl _, ?_, ?_, rfl, ?_⟩)
        · simpa [linkPayload] using alive
        · rw [required]
          rfl
        · show (last.world.store.strings (createBlacklistTokenKey jti)).filter _ = none
          rw [found]
          rfl
    | some entry =>
        rcases blacklist_presented config _ requests _ _ backed jti entry found with old | presented
        · exact .inr (.inl (by simp [old]))
        · exact .inr (.inr presented)

end Runs

-- The reviewer asks for its deletion link, and the moderator for a link that
-- signs it out everywhere.
def mailRequests : Fin 2 → SiteRequest
  | ⟨0, _⟩ => .requestAccountDeletion ritaCaller "j1".toList
  | ⟨_ + 1, _⟩ => .requestSignOutAll (Utf16.ofText "chief@mail".toList) "j2".toList

def mailMoves : List (SiteMove (fun _ => 0) 2) := List.replicate 5 .first ++ List.replicate 3 .second

theorem mail_fresh : FreshAccounts staffedWorld.db mailRequests := by
  refine fresh_undrawn _ _ ?_ (by decide)
  rintro ⟨_ | i, _⟩ row drawn <;> cases drawn

theorem mail_reaches_owner_mailed :
    ∃ last, run (siteStart (fun _ => 0) staffedConfig mailRequests staffedWorld) mailMoves = some last ∧
      last.world.store.addedEmails.length = 2 ∧ ∀ email ∈ last.world.store.addedEmails, email ∈ staffedWorld.store.addedEmails ∨
        ∃ i row opts jti now, OnRecord staffedWorld.db mailRequests row ∧ Asks staffedConfig row (mailRequests i) opts jti ∧
          email = ⟨row.email, linkToken opts row.id jti now⟩ ∧
          (∀ payload, email.token.carries payload → payload.id = row.id.text) ∧
          ∀ stored ∈ last.world.db.accounts, stored.id = row.id → stored.email = email.recipient := by
  obtain ⟨last, reached, queued⟩ := run_exists (siteStart (fun _ => 0) staffedConfig mailRequests staffedWorld) mailMoves
    (fun net => net.world.store.addedEmails.length = 2) (by decide)
  exact ⟨last, reached, queued, mail_reaches_owner (fun _ => 0) staffedConfig _ staffedWorld mail_fresh mailMoves last reached⟩

theorem mailed_links_work_mailed :
    ∃ last, run (siteStart (fun _ => 0) staffedConfig mailRequests staffedWorld) mailMoves = some last ∧
      last.world.store.addedEmails.length = 2 ∧ ∀ email ∈ last.world.store.addedEmails,
        ∃ i row opts jti now, Asks staffedConfig row (mailRequests i) opts jti ∧ email = ⟨row.email, linkToken opts row.id jti now⟩ ∧
          (last.world.store.now / 1000 < now / 1000 + opts.expiresIn →
            verifyNow (fun _ => 0) (fun _ : Unit => opts) last.world.store () email.token = .ok (linkPayload opts row.id jti now) ∨
            staffedWorld.store.strings (createBlacklistTokenKey jti) ≠ none ∨
            ∃ k payload, Presented staffedConfig (mailRequests k) payload ∧ orUndefined payload.jti = jti) := by
  obtain ⟨last, reached, queued⟩ := run_exists (siteStart (fun _ => 0) staffedConfig mailRequests staffedWorld) mailMoves
    (fun net => net.world.store.addedEmails.length = 2) (by decide)
  exact ⟨last, reached, queued, fun email mailed => mailed_links_work (fun _ => 0) staffedConfig _ staffedWorld mail_fresh rfl
    mailMoves last reached email mailed (List.not_mem_nil)⟩

end RateWise
