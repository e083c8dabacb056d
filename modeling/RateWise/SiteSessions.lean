import RateWise.SiteMail

set_option autoImplicit false

namespace RateWise

open Interleave
open ReadCommitted

-- The request opens the session for the account: it signs the account up, or it
-- signs in with the email and the password of the account.
inductive Opens (config : SiteConfig) (row : Account) (sid : Text) : SiteRequest → Prop
  | signUp (input : SignUpInput) (generated : Generated) (req : RequestContext) (joined : row = newAccount input generated)
      (drawn : req.regenerated = sid) : Opens config row sid (.signUp input generated req)
  | signIn (email password : JsString) (req : RequestContext) (address : row.email = parameter email)
      (measured : lengthMatcher password AUTH_RULES.PASSWORD = true) (matched : config.compare password row.passwordHash = true)
      (drawn : req.regenerated = sid) : Opens config row sid (.signIn email password req)

section Origins

variable {n : Nat} (start : Tables) (requests : Fin n → SiteRequest) (config : SiteConfig)

theorem session_origin (i : Fin n) (relation value set member : Text)
    (put : Puts config (AllGenuine start requests (Conferred start requests config)) (requests i)
      (.multiStoreSetAdd relation value set member)) :
    ∃ row, OnRecord start requests row ∧ Opens config row member (requests i) ∧
      relation = createSessionAndUserMappingKey member ∧ value = row.id.text ∧ set = createUserSessionsSetKey row.id.text := by
  generalize asked : requests i = request at put
  cases put with
  | signsUp input row req =>
      exact ⟨newAccount input row, .inr ⟨i, asked ▸ .signUp input row req⟩, .signUp input row req rfl rfl, rfl, rfl, rfl⟩
  | signsIn email password req user known address measured matched =>
      obtain ⟨rows, genuine, stored⟩ := known
      obtain ⟨origin, issued, same⟩ := (genuine user stored).issued
      have ids := unstatused_id origin user same
      refine ⟨origin, issued, .signIn email password req ?_ measured ?_ rfl, rfl, by rw [ids], by rw [ids]⟩
      · rw [unstatused_email origin user same]
        exact address
      · rw [unstatused_hash origin user same]
        exact matched

end Origins

section Runs

variable {n : Nat} {hashtext : Text → Int32}

theorem index_earned (config : SiteConfig) (requests : Fin n → SiteRequest) (world : World)
    (fresh : FreshAccounts world.db requests) (moves : List (SiteMove hashtext n)) (last : SiteNet hashtext n)
    (reached : run (siteStart hashtext config requests world) moves = some last) (userId sid : Text)
    (listed : sid ∈ last.world.store.sets (createUserSessionsSetKey userId)) :
    sid ∈ world.store.sets (createUserSessionsSetKey userId) ∨
      ∃ i row, OnRecord world.db requests row ∧ row.id.text = userId ∧ Opens config row sid (requests i) := by
  rcases (genuine_backed config requests world fresh moves last reached).members _ sid listed with old | ⟨relation, value, i, put⟩
  · exact .inl old
  · obtain ⟨row, issued, opens, -, -, same⟩ := session_origin world.db requests config i _ _ _ _ put
    exact .inr ⟨i, row, issued, (List.append_cancel_left same).symm, opens⟩

-- Nobody has a session of an account without its password.
theorem sessions_earned (hashtext : Text → Int32) (config : SiteConfig) (requests : Fin n → SiteRequest) (world : World)
    (fresh : FreshAccounts world.db requests) (moves : List (SiteMove hashtext n)) (last : SiteNet hashtext n)
    (reached : run (siteStart hashtext config requests world) moves = some last) :
    (∀ userId sid, sid ∈ last.world.store.sets (createUserSessionsSetKey userId) →
      sid ∈ world.store.sets (createUserSessionsSetKey userId) ∨
      ∃ i row, OnRecord world.db requests row ∧ row.id.text = userId ∧ Opens config row sid (requests i)) ∧
    (∀ sid entry, last.world.store.strings (createSessionAndUserMappingKey sid) = some entry →
      world.store.strings (createSessionAndUserMappingKey sid) = some entry ∨
      ∃ i row, OnRecord world.db requests row ∧ row.id.text = entry.value ∧ Opens config row sid (requests i)) := by
  have backed := genuine_backed config requests world fresh moves last reached
  refine ⟨index_earned config requests world fresh moves last reached, fun sid entry found => ?_⟩
  · rcases backed.values _ entry found with old | ⟨ex, i, put⟩ | ⟨set, member, i, put⟩
    · exact .inl old
    · generalize keyed : createSessionAndUserMappingKey sid = key at put
      generalize entry.value = value at put
      generalize requests i = request at put
      cases put with
      | blacklists request payload ttl presented => exact absurd keyed (relation_blacklist_keys _ _)
    · obtain ⟨row, issued, opens, same, named, -⟩ := session_origin world.db requests config i _ _ _ _ put
      exact .inr ⟨i, row, issued, named.symm, List.append_cancel_left same ▸ opens⟩

end Runs

-- The reviewer signs in once more, and a new account signs up.
def loginRequests : Fin 2 → SiteRequest
  | ⟨0, _⟩ => .signIn (Utf16.ofText "rita@mail".toList) (Utf16.ofText "password1".toList) ⟨"s1".toList, "s3".toList⟩
  | ⟨_ + 1, _⟩ => .signUp ⟨"otto".toList, "otto@mail".toList, "hash".toList⟩ ⟨member, 3⟩ ⟨"s0".toList, "s4".toList⟩

def loginMoves : List (SiteMove (fun _ => 0) 2) := List.replicate 4 .first ++ List.replicate 5 .second

theorem login_fresh : FreshAccounts staffedWorld.db loginRequests := by
  refine fresh_listed _ _ [reviewer, chief, newAccount ⟨"otto".toList, "otto@mail".toList, "hash".toList⟩ ⟨member, 3⟩] ?_ (by decide)
  rintro a (stored | ⟨⟨_ | i, _⟩, drawn⟩)
  · exact List.mem_append_left _ stored
  · cases drawn
  · cases drawn
    simp

theorem sessions_earned_login :
    ∃ last, run (siteStart (fun _ => 0) staffedConfig loginRequests staffedWorld) loginMoves = some last ∧
      "s3".toList ∈ last.world.store.sets (createUserSessionsSetKey reviewerId.text) ∧
      ∀ userId sid, sid ∈ last.world.store.sets (createUserSessionsSetKey userId) →
        sid ∈ staffedWorld.store.sets (createUserSessionsSetKey userId) ∨
        ∃ i row, OnRecord staffedWorld.db loginRequests row ∧ row.id.text = userId ∧ Opens staffedConfig row sid (loginRequests i) := by
  obtain ⟨last, reached, joined⟩ := run_exists (siteStart (fun _ => 0) staffedConfig loginRequests staffedWorld) loginMoves
    (fun net => "s3".toList ∈ net.world.store.sets (createUserSessionsSetKey reviewerId.text)) (by decide)
  exact ⟨last, reached, joined,
    (sessions_earned (fun _ => 0) staffedConfig _ staffedWorld login_fresh loginMoves last reached).1⟩

end RateWise
