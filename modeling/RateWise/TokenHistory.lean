import Mathlib.Data.List.Induction
import RateWise.AccountFlow
import RateWise.Solo

set_option autoImplicit false

namespace RateWise

open Interleave
open ReadCommitted

def reservedClaims : List String := ["purpose", "jti", "exp", "iat"]

def CustomData := { payload : List (String × Json.Value) // ∀ entry ∈ payload, entry.1 ∉ reservedClaims }

def Signable (custom : CustomData) : Prop :=
  ∀ entry ∈ custom.1, (entry.1 = "nbf" → ∃ literal, entry.2 = .number literal) ∧ entry.1 ∉ TokensService.objectPrototype

-- The start that the payload names, if it names one, is reached.
def Begun (custom : CustomData) (clockTimestamp : Int) : Prop :=
  ∀ literal, custom.1.lookup "nbf" = some (.number literal) → Json.literalAbove literal clockTimestamp = false

inductive TokenCall (Service : Type) where
  | generate (service : Service) (payload : CustomData) (jti : Text)
  | blacklist (service : Service) (jti : Text) (exp : Int)
  | verify (service : Service) (token : Token)

def TokenCall.drawn {Service : Type} : TokenCall Service → Option Text
  | .generate _ _ jti => some jti
  | _ => none

inductive TokenReply where
  | token (generated : Token)
  | payload (verified : JwtPayload)
  | done
deriving DecidableEq

def TokenCall.program {Service : Type} (services : Service → TokensFeatureOptions) : TokenCall Service → Async TokenReply
  | .generate service payload jti =>
      Prog.bind (TokensService.generate (services service) payload.1 jti) fun token => pure (.token token)
  | .blacklist _ jti exp => Prog.bind (TokensService.blacklist jti (some exp)) fun _ => pure .done
  | .verify service token =>
      Prog.bind (TokensService.verify (services service) token) fun payload => pure (.payload payload)

structure TokenEvent (Service : Type) where
  time : Int
  call : TokenCall Service
  result : Except Err TokenReply

-- The calls so far, newest first.
abbrev TokenLog (Service : Type) := List (TokenEvent Service)

section Serve

variable {Service : Type} (hashtext : Text → Int32) (services : Service → TokensFeatureOptions)

def tokenWorld (store : Redis) : World := ⟨Tables.empty, store⟩

def Redis.later (store : Redis) (elapsed : Nat) : Redis := { store with now := store.now + elapsed }

def serveToken (state : Redis × TokenLog Service) (next : Nat × TokenCall Service) : Redis × TokenLog Service :=
  let store := state.1.later next.1
  let served := (next.2.program services).solo (engine hashtext) (tokenWorld store) none
  (served.2.1.store, ⟨store.now, next.2, served.1⟩ :: state.2)

def serveTokens (store : Redis) (calls : List (Nat × TokenCall Service)) : Redis × TokenLog Service :=
  calls.foldl (serveToken hashtext services) (store, [])

def verifyNow (store : Redis) (service : Service) (token : Token) : Except Err JwtPayload :=
  ((TokensService.verify (services service) token).solo (engine hashtext) (tokenWorld store) none).1

end Serve

-- The payload that a service signs: the given one with the reserved claims.
def signedPayload (opts : TokensFeatureOptions) (custom : CustomData) (jti : Text) (time : Int) : JwtPayload :=
  ⟨some opts.purpose, some jti, some (time / 1000), some (time / 1000 + opts.expiresIn), custom.1⟩

def Issued {Service : Type} (services : Service → TokensFeatureOptions) (log : TokenLog Service) (service : Service)
    (custom : CustomData) (jti : Text) (time : Int) : Prop :=
  ∃ event ∈ log, event.time = time ∧ event.call = .generate service custom jti ∧
    event.result = .ok (.token (.signed (services service).secret (signedPayload (services service) custom jti time)))

-- Until when the last blacklisting of a jti that Redis accepted lasts: an
-- entry with the remaining seconds of exp, for ever when none remain.
def blacklisting {Service : Type} (jti : Text) : TokenLog Service → Option (Option Int)
  | [] => none
  | ⟨time, .blacklist _ named exp, _⟩ :: earlier =>
      if named = jti then
        if exp - time / 1000 = 0 then some none
        else if 0 < exp - time / 1000 then some (some (time + (exp - time / 1000) * 1000))
        else blacklisting jti earlier
      else blacklisting jti earlier
  | _ :: earlier => blacklisting jti earlier

def Blacklisted {Service : Type} (log : TokenLog Service) (jti : Text) (now : Int) : Prop :=
  ∃ ends, blacklisting jti log = some ends ∧ ∀ time, ends = some time → now < time

section Calls

variable {Service : Type} {hashtext : Text → Int32} {services : Service → TokensFeatureOptions}

theorem reject_if_yields (met : Bool) (error : Err) (world : World) (post : Except Err Unit → World → Option (Tx schema Int32) → Prop)
    (rejected : met = true → post (.error error) world none) (passed : met = false → post (.ok ()) world none) :
    Yields (engine hashtext) (rejectIf met error) world none post := by
  cases met with
  | true => exact rejected rfl
  | false => exact passed rfl

theorem verify_token_yields (opts : TokensFeatureOptions) (token : Token) (world : World)
    (post : Except Err JwtPayload → World → Option (Tx schema Int32) → Prop)
    (failed : ∀ error, (∀ payload, ¬ (token = .signed opts.secret payload ∧
      payload.active (world.store.now / 1000) = true ∧ (payload.exp.any fun exp => exp ≤ world.store.now / 1000) = false)) →
        post (.error error) world none)
    (passed : ∀ payload, token = .signed opts.secret payload → payload.active (world.store.now / 1000) = true →
      (payload.exp.any fun exp => exp ≤ world.store.now / 1000) = false → post (.ok payload) world none) :
    Yields (engine hashtext) (TokensService.verifyTokenOrThrow opts token) world none post := by
  cases token with
  | unsigned text => exact failed _ fun payload both => by cases both.1
  | signed secret signed =>
      refine yields_bind _ _ _ _ _ (reject_if_yields _ _ world _ (fun foreign => ?_) fun own => ?_)
      · refine failed _ fun payload both => ?_
        have same : secret = opts.secret := by
          have inner := both.1
          simp only [Token.signed.injEq] at inner
          exact inner.1
        simp [same] at foreign
      · have same : secret = opts.secret := by simpa using own
        refine yields_bind _ _ _ _ _ (yields_cmd (S := schema) (C := Redis.commands) _ RedisCmd.now world none _
          (fun fault impossible => by cases impossible) fun reply store answered => ?_)
        cases answered
        refine yields_bind _ _ _ _ _ (reject_if_yields _ _ world _ (fun early => ?_) fun started => ?_)
        · refine failed _ fun payload all => ?_
          have inner := all.1
          simp only [Token.signed.injEq] at inner
          rw [← inner.2] at all
          simp [all.2.1] at early
        · refine yields_bind _ _ _ _ _ (reject_if_yields _ _ world _ (fun expired => ?_) fun alive => ?_)
          · refine failed _ fun payload all => ?_
            have inner := all.1
            simp only [Token.signed.injEq] at inner
            rw [← inner.2, expired] at all
            cases all.2.2
          · exact passed signed (by rw [same]) (by simpa using started) alive

theorem verify_ok_iff (store : Redis) (service : Service) (token : Token) (payload : JwtPayload) :
    verifyNow hashtext services store service token = .ok payload ↔
      token = .signed (services service).secret payload ∧ payload.active (store.now / 1000) = true ∧
        (payload.exp.any fun exp => exp ≤ store.now / 1000) = false ∧
        isSubset payload.keys ((services service).dataInToken ++ ["purpose", "jti"]) = true ∧
        payload.purpose = some (services service).purpose ∧
        store.live (createBlacklistTokenKey (orUndefined payload.jti)) = none := by
  have whole : Yields (engine hashtext) (TokensService.verify (services service) token) (tokenWorld store) none
      fun result _ _ => result = .ok payload ↔
        token = .signed (services service).secret payload ∧ payload.active (store.now / 1000) = true ∧
          (payload.exp.any fun exp => exp ≤ store.now / 1000) = false ∧
          isSubset payload.keys ((services service).dataInToken ++ ["purpose", "jti"]) = true ∧
          payload.purpose = some (services service).purpose ∧
          store.live (createBlacklistTokenKey (orUndefined payload.jti)) = none := by
    refine yields_bind _ _ _ _ _ (verify_token_yields _ token (tokenWorld store) _ (fun error refused => ?_) fun signed same started alive => ?_)
    · exact iff_of_false (fun impossible => by cases impossible) fun all => refused payload ⟨all.1, all.2.1, all.2.2.1⟩
    · subst same
      have only : Token.signed (services service).secret signed = .signed (services service).secret payload ↔ signed = payload := by
        simp
      rw [only]
      refine yields_bind _ _ _ _ _ (reject_if_yields _ _ _ _ (fun missing => ?_) fun complete => ?_)
      · refine iff_of_false (fun impossible => by cases impossible) ?_
        rintro ⟨rfl, -, -, complete, -⟩
        simp [complete] at missing
      · refine yields_bind _ _ _ _ _ (reject_if_yields _ _ _ _ (fun other => ?_) fun purpose => ?_)
        · refine iff_of_false (fun impossible => by cases impossible) ?_
          rintro ⟨rfl, -, -, -, purpose, -⟩
          simp [purpose] at other
        · refine yields_bind _ _ _ _ _ (yields_cmd (S := schema) (C := Redis.commands) _
            (RedisCmd.get (createBlacklistTokenKey (orUndefined signed.jti))) _ none _
            (fun fault impossible => by cases impossible) fun reply left answered => ?_)
          cases answered
          refine yields_bind _ _ _ _ _ (reject_if_yields _ _ _ _ (fun listed => ?_) fun clear => ?_)
          · refine iff_of_false (fun impossible => by cases impossible) ?_
            rintro ⟨rfl, -, -, -, -, free⟩
            have present : ((store.live (createBlacklistTokenKey (orUndefined signed.jti))).map RedisEntry.value).isSome = true := listed
            simp [free] at present
          · have free : ((store.live (createBlacklistTokenKey (orUndefined signed.jti))).map RedisEntry.value).isSome = false := clear
            simp only [Option.isSome_map, Option.isSome_eq_false_iff, Option.isNone_iff_eq_none] at free
            constructor
            · intro same
              cases same
              exact ⟨rfl, started, alive, by simpa using complete, by simpa using purpose, free⟩
            · rintro ⟨rfl, -⟩
              rfl
  exact whole

theorem set_strings (store : Redis) (key value : Text) (ex : Option Int) :
    Yields (engine hashtext) (redis (.set key value ex)) (tokenWorld store) none fun _ left _ =>
      left.store.now = store.now ∧ (ex = none → left.store.strings = Function.update store.strings key (some ⟨value, none⟩)) ∧
        ∀ seconds, ex = some seconds →
          (0 < seconds → left.store.strings =
            Function.update store.strings key (some ⟨value, some (store.now + seconds * 1000)⟩)) ∧
          (¬ 0 < seconds → left.store.strings = store.strings) := by
  cases ex with
  | none => exact ⟨rfl, fun _ => rfl, fun seconds impossible => (by cases impossible)⟩
  | some seconds =>
      by_cases positive : 0 < seconds
      · refine yields_cmd (S := schema) (C := Redis.commands) _ (RedisCmd.set key value (some seconds)) _ none _
          (fun fault failed => ?_) fun reply left answered => ?_
        · simp [Redis.commands, Redis.exec, tokenWorld, positive] at failed
        · simp only [Redis.commands, Redis.exec, tokenWorld, positive, if_true] at answered
          cases answered
          refine ⟨rfl, fun impossible => (by cases impossible), fun other same => ?_⟩
          cases same
          exact ⟨fun _ => rfl, fun not => absurd positive not⟩
      · refine yields_cmd (S := schema) (C := Redis.commands) _ (RedisCmd.set key value (some seconds)) _ none _
          (fun fault failed => ?_) fun reply left answered => ?_
        · refine ⟨rfl, fun impossible => (by cases impossible), fun other same => ?_⟩
          cases same
          exact ⟨fun yes => absurd yes positive, fun _ => rfl⟩
        · simp [Redis.commands, Redis.exec, tokenWorld, positive] at answered

theorem blacklist_strings (store : Redis) (jti : Text) (exp : Int) :
    Yields (engine hashtext) (TokensService.blacklist jti (some exp)) (tokenWorld store) none fun _ left _ =>
      left.store.now = store.now ∧ left.store.strings =
        if exp - store.now / 1000 = 0 then
          Function.update store.strings (createBlacklistTokenKey jti) (some ⟨"1".toList, none⟩)
        else if 0 < exp - store.now / 1000 then
          Function.update store.strings (createBlacklistTokenKey jti)
            (some ⟨"1".toList, some (store.now + (exp - store.now / 1000) * 1000)⟩)
        else store.strings := by
  refine yields_bind _ _ _ _ _ (yields_cmd (S := schema) (C := Redis.commands) _ RedisCmd.now _ none _
    (fun fault impossible => by cases impossible) fun reply left answered => ?_)
  cases answered
  refine yields_mono _ _ _ _ _ (set_strings store _ _ _) fun result left after holds => ?_
  have ttl : TokensService.calculateTokenTTLSeconds exp store.now = exp - store.now / 1000 := rfl
  refine ⟨holds.1, ?_⟩
  by_cases zero : exp - store.now / 1000 = 0
  · rw [if_pos zero]
    exact holds.2.1 (by simp [tokenWorld, ttl, zero])
  · rw [if_neg zero]
    have timed := holds.2.2 (exp - store.now / 1000) (by simp [tokenWorld, ttl, zero])
    by_cases positive : 0 < exp - store.now / 1000
    · rw [if_pos positive]
      exact timed.1 positive
    · rw [if_neg positive]
      exact timed.2 positive

theorem blacklist_key_injective (a b : Text) (same : createBlacklistTokenKey a = createBlacklistTokenKey b) : a = b :=
  List.append_cancel_left same

def Recorded (state : Redis × TokenLog Service) : Prop :=
  ∀ jti, state.1.strings (createBlacklistTokenKey jti) = (blacklisting jti state.2).map fun ends => ⟨"1".toList, ends⟩

def Reading (s : Api.Stmt) : Prop := s = Call.cmd RedisCmd.now ∨ ∃ key, s = Call.cmd (RedisCmd.get key)

theorem reading_strings {α : Type} (prog : Async α) (world : World) (reading : prog.Quiet Reading fun _ => True) :
    Yields (engine hashtext) prog world none fun _ left _ => left.store = world.store := by
  induction prog generalizing world with
  | done value => rfl
  | throw error => rfl
  | stmt s resume ih =>
      obtain ⟨kind, onward⟩ := reading
      rcases kind with rfl | ⟨key, rfl⟩
      · exact ih _ _ (onward _)
      · exact ih _ _ (onward _)
  | beginTx rest => cases reading
  | commitTx rest => cases reading
  | rollbackTx rest => cases reading

theorem invalid_claim_none (entry : String × Json.Value) : TokensService.invalidClaim entry = none ↔
    (entry.1 = "nbf" → ∃ literal, entry.2 = .number literal) ∧ entry.1 ∉ TokensService.objectPrototype := by
  obtain ⟨key, value⟩ := entry
  have foreign : "nbf" ∉ TokensService.objectPrototype := by decide
  by_cases start : key = "nbf"
  · subst start
    cases value <;> simp [TokensService.invalidClaim, foreign]
  · simp [TokensService.invalidClaim, start]

theorem signable_iff (custom : CustomData) : custom.1.findSome? TokensService.invalidClaim = none ↔ Signable custom := by
  rw [List.findSome?_eq_none_iff]
  exact forall₂_congr fun entry _ => invalid_claim_none entry

theorem generate_yields (service : Service) (payload : CustomData) (jti : Text) (store : Redis) :
    Yields (engine hashtext) ((TokenCall.generate service payload jti).program services) (tokenWorld store) none
      fun result left _ => left.store = store ∧
        (Signable payload → result =
          .ok (.token (.signed (services service).secret (signedPayload (services service) payload jti store.now)))) ∧
        (¬ Signable payload → ∃ error, result = .error error) := by
  refine yields_bind _ _ _ _ _ (yields_bind _ _ _ _ _ (reject_if_yields _ _ _ _ (fun invalid => ?_) fun valid => ?_))
  · refine ⟨rfl, fun signable => ?_, fun _ => ⟨_, rfl⟩⟩
    rw [(signable_iff payload).mpr signable] at invalid
    cases invalid
  · refine yields_bind _ _ _ _ _ (yields_cmd (S := schema) (C := Redis.commands) _ RedisCmd.now _ none _
      (fun fault impossible => by cases impossible) fun reply left answered => ?_)
    cases answered
    refine ⟨rfl, fun _ => rfl, fun unsignable => absurd ((signable_iff payload).mp ?_) unsignable⟩
    exact Option.isNone_iff_eq_none.mp (Option.isSome_eq_false_iff.mp valid)

theorem reject_if_reading (met : Bool) (error : Err) (allowed : Api.Stmt → Prop) :
    (rejectIf met error).Quiet allowed fun _ => True := by
  cases met with
  | true => trivial
  | false => trivial

theorem verify_reading (opts : TokensFeatureOptions) (token : Token) :
    (TokensService.verify opts token).Quiet Reading fun _ => True := by
  refine Prog.quiet_bind _ (fun _ => True) _ _ _ ?_ fun payload _ => ?_
  · cases token with
    | unsigned text => trivial
    | signed secret payload =>
        exact Prog.quiet_bind _ (fun _ => True) _ _ _ (reject_if_reading _ _ _) fun _ _ =>
          Prog.quiet_bind _ (fun _ => True) _ _ _ ⟨.inl rfl, fun reply => by cases reply <;> trivial⟩ fun _ _ =>
            Prog.quiet_bind _ (fun _ => True) _ _ _ (reject_if_reading _ _ _) fun _ _ =>
              Prog.quiet_bind _ (fun _ => True) _ _ _ (reject_if_reading _ _ _) fun _ _ => trivial
  · exact Prog.quiet_bind _ (fun _ => True) _ _ _ (reject_if_reading _ _ _) fun _ _ =>
      Prog.quiet_bind _ (fun _ => True) _ _ _ (reject_if_reading _ _ _) fun _ _ =>
        Prog.quiet_bind _ (fun _ => True) _ _ _ ⟨.inr ⟨_, rfl⟩, fun reply => by cases reply <;> trivial⟩ fun _ _ =>
          Prog.quiet_bind _ (fun _ => True) _ _ _ (reject_if_reading _ _ _) fun _ _ => trivial

theorem verify_yields (service : Service) (token : Token) (store : Redis) :
    Yields (engine hashtext) ((TokenCall.verify service token).program services) (tokenWorld store) none
      fun _ left _ => left.store = store :=
  reading_strings _ _ (Prog.quiet_bind _ (fun _ => True) _ _ _ (verify_reading _ token) fun _ _ => trivial)

theorem serve_recorded (state : Redis × TokenLog Service) (next : Nat × TokenCall Service) (recorded : Recorded state) :
    Recorded (serveToken hashtext services state next) := by
  obtain ⟨store, log⟩ := state
  obtain ⟨elapsed, call⟩ := next
  intro jti
  have before : (store.later elapsed).strings (createBlacklistTokenKey jti) =
      (blacklisting jti log).map fun ends => ⟨"1".toList, ends⟩ := recorded jti
  cases call with
  | generate service payload named =>
      have kept := (@generate_yields Service hashtext services service payload named
        (store.later elapsed)).1
      simp only [serveToken, kept]
      exact before
  | verify service token =>
      have kept := @verify_yields Service hashtext services service token (store.later elapsed)
      simp only [Yields] at kept
      simp only [serveToken, kept]
      exact before
  | blacklist service named exp =>
      have whole : Yields (engine hashtext) ((TokenCall.blacklist service named exp).program services)
          (tokenWorld (store.later elapsed)) none fun _ left _ =>
            left.store.strings (createBlacklistTokenKey jti) =
              (blacklisting jti (⟨(store.later elapsed).now, .blacklist service named exp, .ok .done⟩ :: log)).map
                fun ends => ⟨"1".toList, ends⟩ := by
        refine yields_bind _ _ _ _ _ (yields_mono _ _ _ _ _ (blacklist_strings _ named exp) fun result left after holds => ?_)
        have strings : left.store.strings (createBlacklistTokenKey jti) =
            (blacklisting jti (⟨(store.later elapsed).now, .blacklist service named exp, .ok .done⟩ :: log)).map
              fun ends => ⟨"1".toList, ends⟩ := by
          rw [holds.2]
          by_cases same : named = jti
          · subst same
            simp only [blacklisting, if_true]
            split
            · simp
            · split
              · simp
              · exact before
          · have different : createBlacklistTokenKey jti ≠ createBlacklistTokenKey named := fun equal =>
              same (blacklist_key_injective _ _ equal).symm
            simp only [blacklisting, same, if_false, ← before]
            split
            · exact Function.update_of_ne different _ _
            · split
              · exact Function.update_of_ne different _ _
              · rfl
        cases result <;> exact strings
      exact whole

def Faithful (services : Service → TokensFeatureOptions) (log : TokenLog Service) : Prop :=
  ∀ event ∈ log, ∀ service custom jti, event.call = .generate service custom jti →
    (Signable custom → event.result =
      .ok (.token (.signed (services service).secret (signedPayload (services service) custom jti event.time)))) ∧
    (¬ Signable custom → ∃ error, event.result = .error error)

def TokensGenerated (log : TokenLog Service) : Prop :=
  ∀ event ∈ log, ∀ token, event.result = .ok (.token token) → ∃ service custom jti, event.call = .generate service custom jti

theorem serve_faithful (state : Redis × TokenLog Service) (next : Nat × TokenCall Service) (faithful : Faithful services state.2) :
    Faithful services (serveToken hashtext services state next).2 := by
  obtain ⟨store, log⟩ := state
  obtain ⟨elapsed, call⟩ := next
  intro event member service custom jti called
  rcases List.mem_cons.mp member with rfl | earlier
  · subst called
    exact (@generate_yields Service hashtext services service custom jti
      (store.later elapsed)).2
  · exact faithful event earlier service custom jti called

theorem serve_tokens_generated (state : Redis × TokenLog Service) (next : Nat × TokenCall Service)
    (generated : TokensGenerated state.2) : TokensGenerated (serveToken hashtext services state next).2 := by
  obtain ⟨store, log⟩ := state
  obtain ⟨elapsed, call⟩ := next
  intro event member token answered
  rcases List.mem_cons.mp member with rfl | earlier
  · cases call with
    | generate service payload named => exact ⟨service, payload, named, rfl⟩
    | blacklist service named exp =>
        have other : Yields (engine hashtext) ((TokenCall.blacklist service named exp).program services)
            (tokenWorld (store.later elapsed)) none fun result _ _ => result ≠ .ok (.token token) := by
          refine yields_bind _ _ _ _ _ (yields_mono _ _ _ _ _ (blacklist_strings _ named exp) fun result left after _ => ?_)
          cases result <;> exact fun impossible => by cases impossible
        exact absurd answered other
    | verify service presented =>
        have other : Yields (engine hashtext) ((TokenCall.verify service presented).program services)
            (tokenWorld (store.later elapsed)) none fun result _ _ => result ≠ .ok (.token token) := by
          refine yields_bind _ _ _ _ _ (yields_mono _ _ _ (fun _ _ _ => True) _ trivial fun result left after _ => ?_)
          cases result <;> exact fun impossible => by cases impossible
        exact absurd answered other
  · exact generated event earlier token answered

theorem serve_invariant (holds : Redis × TokenLog Service → Prop)
    (preserved : ∀ state next, holds state → holds (serveToken hashtext services state next))
    (calls : List (Nat × TokenCall Service)) (state : Redis × TokenLog Service) (start : holds state) :
    holds (calls.foldl (serveToken hashtext services) state) := by
  induction calls generalizing state with
  | nil => exact start
  | cons next rest ih => exact ih _ (preserved state next start)

theorem serve_calls (state : Redis × TokenLog Service) (calls : List (Nat × TokenCall Service)) :
    (calls.foldl (serveToken hashtext services) state).2.map TokenEvent.call =
      (calls.map Prod.snd).reverse ++ state.2.map TokenEvent.call := by
  induction calls generalizing state with
  | nil => rfl
  | cons next rest ih =>
      rw [List.foldl_cons, ih]
      simp [serveToken]

theorem drawn_once (log : TokenLog Service) (fresh : ((log.map TokenEvent.call).filterMap TokenCall.drawn).Nodup)
    (one two : TokenEvent Service) (here : one ∈ log) (there : two ∈ log) (jti : Text) (first : one.call.drawn = some jti)
    (second : two.call.drawn = some jti) : one = two := by
  induction log with
  | nil => cases here
  | cons event earlier ih =>
      have apart : ∀ other ∈ earlier, event.call.drawn = some jti → other.call.drawn = some jti → False := by
        intro other member newest older
        simp only [List.map_cons, List.filterMap_cons, newest, List.nodup_cons] at fresh
        exact fresh.1 (List.mem_filterMap.mpr ⟨other.call, List.mem_map_of_mem member, older⟩)
      have rest : ((earlier.map TokenEvent.call).filterMap TokenCall.drawn).Nodup := by
        rw [List.map_cons, List.filterMap_cons] at fresh
        split at fresh
        · exact fresh
        · exact (List.nodup_cons.mp fresh).2
      rcases List.mem_cons.mp here with rfl | oneEarlier
      · rcases List.mem_cons.mp there with rfl | twoEarlier
        · rfl
        · exact (apart two twoEarlier first second).elim
      · rcases List.mem_cons.mp there with rfl | twoEarlier
        · exact (apart one oneEarlier second first).elim
        · exact ih rest oneEarlier twoEarlier

theorem live_blacklisted (store : Redis) (log : TokenLog Service) (recorded : Recorded (store, log)) (jti : Text) :
    store.live (createBlacklistTokenKey jti) = none ↔ ¬ Blacklisted log jti store.now := by
  have entry : store.strings (createBlacklistTokenKey jti) = (blacklisting jti log).map fun ends => ⟨"1".toList, ends⟩ :=
    recorded jti
  unfold Redis.live Blacklisted
  rw [entry]
  cases listed : blacklisting jti log with
  | none => simp
  | some ends =>
      cases ends with
      | none => simp
      | some time => simp

theorem issued_by (log : TokenLog Service) (faithful : Faithful services log)
    (generated : TokensGenerated log) (event : TokenEvent Service) (member : event ∈ log) (token : Token)
    (answered : event.result = .ok (.token token)) :
    ∃ service custom jti, Issued services log service custom jti event.time ∧
      token = .signed (services service).secret (signedPayload (services service) custom jti event.time) := by
  obtain ⟨by_, custom, jti, called⟩ := generated event member token answered
  have result := faithful event member by_ custom jti called
  by_cases signable : Signable custom
  · refine ⟨by_, custom, jti, ⟨event, member, rfl, called, result.1 signable⟩, ?_⟩
    rw [result.1 signable] at answered
    cases answered
    rfl
  · obtain ⟨error, thrown⟩ := result.2 signable
    rw [thrown] at answered
    cases answered

theorem issued_signable (log : TokenLog Service) (faithful : Faithful services log) (service : Service) (custom : CustomData)
    (jti : Text) (time : Int) (issued : Issued services log service custom jti time) : Signable custom := by
  obtain ⟨event, member, rfl, called, answered⟩ := issued
  by_contra unsignable
  obtain ⟨error, thrown⟩ := (faithful event member service custom jti called).2 unsignable
  rw [thrown] at answered
  cases answered

theorem active_iff (custom : CustomData) (signable : Signable custom) (opts : TokensFeatureOptions) (jti : Text) (time : Int)
    (clockTimestamp : Int) : (signedPayload opts custom jti time).active clockTimestamp = true ↔ Begun custom clockTimestamp := by
  unfold Begun
  cases named : custom.1.lookup "nbf" with
  | none => exact iff_of_true (JwtPayload.active_absent _ named clockTimestamp) fun literal impossible => by cases impossible
  | some value =>
      obtain ⟨before, after, split, -⟩ := List.lookup_eq_some_iff.mp named
      obtain ⟨literal, rfl⟩ := (signable ("nbf", value) (by simp [split])).1 rfl
      rw [JwtPayload.active_number _ literal named]
      simp

theorem signed_keys (opts : TokensFeatureOptions) (custom : CustomData) (jti : Text) (time : Int) :
    isSubset (signedPayload opts custom jti time).keys (opts.dataInToken ++ ["purpose", "jti"]) = true ↔
      ∀ key ∈ opts.dataInToken, key ∈ reservedClaims ∨ key ∈ custom.1.map Prod.fst := by
  simp only [isSubset, JwtPayload.keys, signedPayload, reservedClaims, Option.map_some, Option.toList_some, List.all_append,
    List.all_cons, List.all_nil, Bool.and_true, Bool.and_eq_true, List.all_eq_true, List.contains_eq_mem, decide_eq_true_eq,
    List.mem_append, List.mem_cons, List.not_mem_nil, or_false]
  constructor
  · rintro ⟨all, -⟩ key member
    have found := all key member
    tauto
  · intro all
    refine ⟨fun key member => ?_, by tauto⟩
    have found := all key member
    tauto

theorem issued_once (log : TokenLog Service) (fresh : ((log.map TokenEvent.call).filterMap TokenCall.drawn).Nodup)
    (one two : Service) (custom data : CustomData) (jti : Text) (time later : Int) (first : Issued services log one custom jti time)
    (second : Issued services log two data jti later) : one = two ∧ custom = data ∧ time = later := by
  obtain ⟨early, here, earlyTime, earlyCall, -⟩ := first
  obtain ⟨late, there, lateTime, lateCall, -⟩ := second
  have same := drawn_once log fresh early late here there jti (by rw [earlyCall]; rfl) (by rw [lateCall]; rfl)
  subst same
  rw [earlyCall] at lateCall
  cases lateCall
  exact ⟨rfl, rfl, earlyTime.symm.trans lateTime⟩

theorem blacklist_spares (store : Redis) (log : TokenLog Service) (elapsed : Nat) (other : Service) (jti own : Text) (exp : Int)
    (apart : own ≠ jti) :
    (serveToken hashtext services (store, log) (elapsed, .blacklist other jti exp)).1.now = store.now + elapsed ∧
      (serveToken hashtext services (store, log) (elapsed, .blacklist other jti exp)).1.live (createBlacklistTokenKey own) =
        (store.later elapsed).live (createBlacklistTokenKey own) := by
  have keys : createBlacklistTokenKey own ≠ createBlacklistTokenKey jti := fun equal => apart (blacklist_key_injective _ _ equal)
  have blacklisted : Yields (engine hashtext) ((TokenCall.blacklist other jti exp).program services)
      (tokenWorld (store.later elapsed)) none fun _ after _ => after.store.now = store.now + elapsed ∧
        after.store.strings (createBlacklistTokenKey own) = store.strings (createBlacklistTokenKey own) := by
    refine yields_bind _ _ _ _ _ (yields_mono _ _ _ _ _ (blacklist_strings _ jti exp) fun result after open_ holds => ?_)
    have kept : after.store.now = store.now + elapsed ∧
        after.store.strings (createBlacklistTokenKey own) = store.strings (createBlacklistTokenKey own) := by
      refine ⟨holds.1, ?_⟩
      rw [holds.2]
      split
      · exact Function.update_of_ne keys _ _
      · split
        · exact Function.update_of_ne keys _ _
        · rfl
    cases result <;> exact kept
  obtain ⟨now, entry⟩ := blacklisted
  refine ⟨now, ?_⟩
  unfold Redis.live
  simp only [serveToken, now, entry]
  rfl

theorem verify_issued_iff (left : Redis) (log : TokenLog Service) (elapsed : Nat) (service : Service) (token : Token)
    (recorded : Recorded (left, log)) (faithful : Faithful services log) (generated : TokensGenerated log)
    (purposes : ∀ one two, (services one).purpose = (services two).purpose → one = two)
    (unforgeable : ∀ payload, token = .signed (services service).secret payload →
      ∃ event ∈ log, event.result = .ok (.token token)) (payload : JwtPayload) :
    verifyNow hashtext services (left.later elapsed) service token = .ok payload ↔
      ∃ custom jti time, Issued services log service custom jti time ∧
        token = .signed (services service).secret (signedPayload (services service) custom jti time) ∧
        payload = signedPayload (services service) custom jti time ∧
        (∀ key ∈ (services service).dataInToken, key ∈ reservedClaims ∨ key ∈ custom.1.map Prod.fst) ∧
        Begun custom ((left.now + elapsed) / 1000) ∧
        (left.now + elapsed) / 1000 < time / 1000 + (services service).expiresIn ∧
        ¬ Blacklisted log jti (left.now + elapsed) := by
  have free := live_blacklisted (left.later elapsed) log recorded
  rw [verify_ok_iff]
  constructor
  · rintro ⟨signed, started, alive, complete, purpose, clear⟩
    obtain ⟨event, member, answered⟩ := unforgeable payload signed
    obtain ⟨other, custom, jti, issued, same⟩ := issued_by log faithful generated event member token answered
    have payloads : payload = signedPayload (services other) custom jti event.time := by
      rw [same] at signed
      simp only [Token.signed.injEq] at signed
      exact signed.2.symm
    subst payloads
    have own : other = service := purposes _ _ (by simpa [signedPayload] using purpose)
    subst own
    have begun := (active_iff custom (issued_signable log faithful other custom jti event.time issued) _ _ _ _).mp started
    refine ⟨custom, jti, event.time, issued, signed, rfl, (signed_keys _ _ _ _).mp complete, begun, ?_, (free jti).mp clear⟩
    have running : ¬ event.time / 1000 + (services other).expiresIn ≤ (left.now + elapsed) / 1000 := by
      intro expired
      have reached : (decide (event.time / 1000 + (services other).expiresIn ≤ (left.now + elapsed) / 1000)) = false := alive
      simp [expired] at reached
    omega
  · rintro ⟨custom, jti, time, issued, signed, rfl, complete, begun, alive, clear⟩
    have signable := issued_signable log faithful service custom jti time issued
    refine ⟨signed, (active_iff custom signable _ _ _ _).mpr begun, ?_, (signed_keys _ _ _ _).mpr complete, rfl, (free jti).mpr clear⟩
    have running : ¬ time / 1000 + (services service).expiresIn ≤ (left.now + elapsed) / 1000 := by omega
    exact decide_eq_false running

theorem verify_accepts_iff {Service : Type} (hashtext : Text → Int32) (services : Service → TokensFeatureOptions)
    (store : Redis) (calls : List (Nat × TokenCall Service)) (elapsed : Nat) (service : Service) (token : Token)
    (purposes : ∀ one two, (services one).purpose = (services two).purpose → one = two)
    (clean : ∀ jti, store.strings (createBlacklistTokenKey jti) = none)
    (fresh : (calls.filterMap fun next => next.2.drawn).Nodup)
    (unforgeable : ∀ payload, token = .signed (services service).secret payload →
      ∃ event ∈ (serveTokens hashtext services store calls).2, event.result = .ok (.token token)) :
    (∀ payload,
      verifyNow hashtext services ((serveTokens hashtext services store calls).1.later elapsed) service token =
          .ok payload ↔
        ∃ custom jti time, Issued services (serveTokens hashtext services store calls).2 service custom jti time ∧
          token = .signed (services service).secret (signedPayload (services service) custom jti time) ∧
          payload = signedPayload (services service) custom jti time ∧
          (∀ key ∈ (services service).dataInToken, key ∈ reservedClaims ∨ key ∈ custom.1.map Prod.fst) ∧
          Begun custom (((serveTokens hashtext services store calls).1.now + elapsed) / 1000) ∧
          ((serveTokens hashtext services store calls).1.now + elapsed) / 1000 < time / 1000 + (services service).expiresIn ∧
          ¬ Blacklisted (serveTokens hashtext services store calls).2 jti
            ((serveTokens hashtext services store calls).1.now + elapsed)) ∧
      (∀ other custom jti time payload, Issued services (serveTokens hashtext services store calls).2 other custom jti time →
        token = .signed (services other).secret (signedPayload (services other) custom jti time) → other ≠ service →
        verifyNow hashtext services ((serveTokens hashtext services store calls).1.later elapsed) service token ≠
          .ok payload) ∧
      (∀ other custom jti time exp payload, Issued services (serveTokens hashtext services store calls).2 other custom jti time →
        token ≠ .signed (services other).secret (signedPayload (services other) custom jti time) →
        verifyNow hashtext services ((serveTokens hashtext services store calls).1.later elapsed) service token =
          .ok payload →
        verifyNow hashtext services
          (serveToken hashtext services (serveTokens hashtext services store calls) (elapsed, .blacklist other jti exp)).1
          service token = .ok payload) ∧
      ∀ event ∈ (serveTokens hashtext services store calls).2, ∀ other custom jti, event.call = .generate other custom jti →
        (Signable custom → Issued services (serveTokens hashtext services store calls).2 other custom jti event.time) ∧
        (¬ Signable custom → ∃ error, event.result = .error error) := by
  have recorded : Recorded (serveTokens hashtext services store calls) :=
    serve_invariant Recorded serve_recorded calls (store, []) fun jti => clean jti
  have faithful : Faithful services (serveTokens hashtext services store calls).2 :=
    serve_invariant (fun state => Faithful services state.2) serve_faithful calls (store, []) fun event member => by cases member
  have generated : TokensGenerated (serveTokens hashtext services store calls).2 :=
    serve_invariant (fun state => TokensGenerated state.2) serve_tokens_generated calls (store, []) fun event member => by cases member
  have drawn : (((serveTokens hashtext services store calls).2.map TokenEvent.call).filterMap TokenCall.drawn).Nodup := by
    have same : (serveTokens hashtext services store calls).2.map TokenEvent.call = (calls.map Prod.snd).reverse := by
      simpa [serveTokens] using @serve_calls Service hashtext services (store, []) calls
    rw [same, List.filterMap_reverse, List.nodup_reverse, List.filterMap_map]
    exact fresh
  generalize serveTokens hashtext services store calls = state at *
  obtain ⟨left, log⟩ := state
  have accepts := @verify_issued_iff Service hashtext services left log elapsed service token recorded faithful generated
    purposes unforgeable
  refine ⟨accepts, ?_, ?_, ?_⟩
  · intro other custom jti time payload issued signed different accepted
    obtain ⟨-, -, -, -, purpose, -⟩ := (verify_ok_iff _ _ _ _).mp accepted
    obtain ⟨custom', jti', time', -, signed', same, -⟩ := (accepts payload).mp accepted
    rw [signed] at signed'
    simp only [Token.signed.injEq] at signed'
    have purposesAgree : (services other).purpose = (services service).purpose := by
      have equal := congrArg JwtPayload.purpose signed'.2
      simpa [signedPayload] using equal
    exact different (purposes _ _ purposesAgree)
  · intro other custom jti time exp payload issued different accepted
    obtain ⟨own, ownJti, ownTime, ownIssued, signed, same, -⟩ := (accepts payload).mp accepted
    have apart : ownJti ≠ jti := by
      rintro rfl
      obtain ⟨rfl, rfl, rfl⟩ := issued_once log drawn _ _ _ _ _ _ _ ownIssued issued
      exact different signed
    obtain ⟨now, unlisted⟩ := @blacklist_spares Service hashtext services left log elapsed other jti ownJti exp apart
    have jtis : orUndefined payload.jti = ownJti := by
      rw [same]
      rfl
    rw [verify_ok_iff] at accepted ⊢
    obtain ⟨signedSame, started, alive, complete, purpose, clear⟩ := accepted
    refine ⟨signedSame, ?_, ?_, complete, purpose, ?_⟩
    · rw [now]
      exact started
    · rw [now]
      exact alive
    · rw [jtis] at clear ⊢
      rw [unlisted]
      exact clear
  · intro event member other custom jti called
    have result := faithful event member other custom jti called
    exact ⟨fun signable => ⟨event, member, rfl, called, result.1 signable⟩, result.2⟩

-- Two services that share a secret: verification and deletion.
def pairOf (deletion : Bool) : TokensFeatureOptions :=
  ⟨"secret".toList, 3600, if deletion then .accountDeletion else .accountVerification, ["id"]⟩

def annData : CustomData := ⟨TokensService.identity "ann".toList, by simp [TokensService.identity, reservedClaims]⟩

-- A token of each service; the deletion token is blacklisted.
def pairCalls : List (Nat × TokenCall Bool) :=
  [(0, .generate false annData "one".toList), (1000, .generate true annData "two".toList),
    (1000, .blacklist true "two".toList 3601)]

def verificationToken : Token := .signed "secret".toList (signedPayload (pairOf false) annData "one".toList 0)

theorem verify_accepts_iff_pair :
    verifyNow (fun _ => 0) pairOf ((serveTokens (fun _ => 0) pairOf Redis.empty pairCalls).1.later 5000) false verificationToken =
        .ok (signedPayload (pairOf false) annData "one".toList 0) ∧
      ∀ payload, verifyNow (fun _ => 0) pairOf ((serveTokens (fun _ => 0) pairOf Redis.empty pairCalls).1.later 5000) true
        verificationToken ≠ .ok payload := by
  have purposes : ∀ one two, (pairOf one).purpose = (pairOf two).purpose → one = two := by decide
  have issued : Issued pairOf (serveTokens (fun _ => 0) pairOf Redis.empty pairCalls).2 false annData "one".toList 0 :=
    ⟨⟨0, .generate false annData "one".toList, .ok (.token verificationToken)⟩, .tail _ (.tail _ (.head _)), rfl, rfl, rfl⟩
  have unforgeable : ∃ event ∈ (serveTokens (fun _ => 0) pairOf Redis.empty pairCalls).2,
      event.result = .ok (.token verificationToken) :=
    ⟨⟨0, .generate false annData "one".toList, .ok (.token verificationToken)⟩, .tail _ (.tail _ (.head _)), rfl⟩
  have fresh : (pairCalls.filterMap fun next => next.2.drawn).Nodup := by decide
  constructor
  · refine ((verify_accepts_iff (fun _ => 0) pairOf Redis.empty pairCalls 5000 false verificationToken purposes
      (fun _ => rfl) fresh fun _ _ => unforgeable).1 _).mpr
      ⟨annData, "one".toList, 0, issued, rfl, rfl, by decide, fun literal named => (by cases named), by decide, ?_⟩
    rintro ⟨ends, listed, -⟩
    cases listed
  · intro payload
    exact (verify_accepts_iff (fun _ => 0) pairOf Redis.empty pairCalls 5000 true verificationToken purposes
      (fun _ => rfl) fresh fun _ _ => unforgeable).2.1 false annData "one".toList 0 payload issued rfl (by decide)

-- A payload that names the next hour for its start.
def futureData : CustomData :=
  ⟨TokensService.identity "ann".toList ++ [("nbf", .number "3599".toList)], by simp [TokensService.identity, reservedClaims]⟩

def futureCalls : List (Nat × TokenCall Bool) := [(0, .generate false futureData "one".toList)]

def futureToken : Token := .signed "secret".toList (signedPayload (pairOf false) futureData "one".toList 0)

-- The token of an earlier generate, complete, not expired and not blacklisted,
-- is refused.
theorem future_start_refused :
    Issued pairOf (serveTokens (fun _ => 0) pairOf Redis.empty futureCalls).2 false futureData "one".toList 0 ∧
      futureToken = .signed (pairOf false).secret (signedPayload (pairOf false) futureData "one".toList 0) ∧
      (∀ key ∈ (pairOf false).dataInToken, key ∈ reservedClaims ∨ key ∈ futureData.1.map Prod.fst) ∧
      ((serveTokens (fun _ => 0) pairOf Redis.empty futureCalls).1.now + 5000) / 1000 < 0 / 1000 + (pairOf false).expiresIn ∧
      ¬ Blacklisted (serveTokens (fun _ => 0) pairOf Redis.empty futureCalls).2 "one".toList
        ((serveTokens (fun _ => 0) pairOf Redis.empty futureCalls).1.now + 5000) ∧
      verifyNow (fun _ => 0) pairOf ((serveTokens (fun _ => 0) pairOf Redis.empty futureCalls).1.later 5000) false futureToken =
        .error (.invalidToken "jwt not active") := by
  refine ⟨⟨⟨0, .generate false futureData "one".toList, .ok (.token futureToken)⟩, .head _, rfl, rfl, rfl⟩, rfl, by decide,
    by decide, ?_, rfl⟩
  rintro ⟨ends, listed, -⟩
  cases listed

end Calls

end RateWise
