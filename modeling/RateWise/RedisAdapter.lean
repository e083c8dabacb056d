import RateWise.Backend
import RateWise.ExpiringMap
import RateWise.Inputs
import RateWise.JsonReads

set_option autoImplicit false

namespace RateWise

open Json (Value Sound IsNumber parse stringify)

-- What store takes: a string, a finite number by the text that toString gives
-- it, or what JSON.stringify has a text for.
inductive Data where
  | string (text : JsString)
  | number (literal : Text) (valid : IsNumber literal)
  | array (items : List Value) (sound : Sound (.array items))
  | object (members : List (JsString × Value)) (sound : Sound (.object members))

namespace Data

def asValue : Data → Value
  | .string text => .string text
  | .number literal _ => .number literal
  | .array items _ => .array items
  | .object members _ => .object members

-- data.toString(), after JSON.stringify of an object; the client sends UTF-8.
def sent : Data → Text
  | .string text => parameter text
  | .number literal _ => literal
  | .array items _ => stringify (.array items)
  | .object members _ => stringify (.object members)

end Data

namespace RedisClientAdapter

def store (redis : Redis) (key : JsString) (data : Data) (expTimeSeconds : Option Nat) : Except Fault Redis := do
  match expTimeSeconds.filter fun seconds => seconds ≠ 0 with
  | some seconds => do
      let (_, left) ← redis.exec (.set (parameter key) data.sent (some seconds))
      pure left
  | none => do
      let (_, left) ← redis.exec (.set (parameter key) data.sent none)
      pure left

-- What get makes of the reply: JSON.parse, or the text itself when that throws.
def read : Option Text → Value
  | none => .null
  | some [] => .null
  | some data => match parse data with
    | some value => value
    | none => .string (Utf16.ofText data)

def get (redis : Redis) (key : JsString) : Except Fault Value := do
  let (data, _) ← redis.exec (.get (parameter key))
  pure (read data)

-- EXISTS replies 1 for a key that is there; the keys of the sets are others.
def exists_ (redis : Redis) (key : JsString) : Bool := (redis.live (parameter key)).isSome

def delete (redis : Redis) (key : JsString) : Except Fault Redis := do
  let (_, left) ← redis.exec (.del (parameter key))
  pure left

abbrev Op := ExpiringMap.Op JsString Data

inductive Answer where
  | done
  | got (value : Value)
  | there (present : Bool)

def perform (redis : Redis) : Op → Except Fault (Answer × Redis)
  | .store key data seconds => do
      let left ← store redis key data seconds
      pure (.done, left)
  | .get key => do
      let value ← get redis key
      pure (.got value, redis)
  | .has key => pure (.there (exists_ redis key), redis)
  | .delete key => do
      let left ← delete redis key
      pure (.done, left)

def run : Redis → List (Nat × Op) → Except Fault (List Answer × Redis)
  | redis, [] => pure ([], redis)
  | redis, (elapsed, op) :: rest => do
      let (answer, next) ← perform { redis with now := redis.now + elapsed } op
      let (answers, last) ← run next rest
      pure (answer :: answers, last)

section Values

-- A text that JSON.parse throws on, and that neither UTF-8 nor the test for an
-- empty reply changes.
def Kept : Data → Prop
  | .string text => text ≠ [] ∧ Utf16.WellFormed text ∧ parse (parameter text) = none
  | _ => True

theorem read_parsed (text : Text) (value : Value) (nonempty : text ≠ []) (parsed : parse text = some value) :
    read (some text) = value := by
  cases text with
  | nil => exact absurd rfl nonempty
  | cons c rest => simp only [read, parsed]

theorem read_plain (text : Text) (nonempty : text ≠ []) (plain : parse text = none) :
    read (some text) = .string (Utf16.ofText text) := by
  cases text with
  | nil => exact absurd rfl nonempty
  | cons c rest => simp only [read, plain]

theorem read_sound (value : Value) (sound : Sound value) : read (some (stringify value)) = value := by
  obtain ⟨c, tail, text, -⟩ := (Json.sound_reads value sound).opens
  exact read_parsed _ value (by rw [text]; exact List.cons_ne_nil _ _) (Json.parse_stringify value sound)

theorem read_sent_iff (data : Data) : read (some data.sent) = data.asValue ↔ Kept data := by
  cases data with
  | number literal valid => exact iff_of_true (read_sound (.number literal) (.number literal valid)) trivial
  | array items sound => exact iff_of_true (read_sound (.array items) sound) trivial
  | object members sound => exact iff_of_true (read_sound (.object members) sound) trivial
  | string text =>
      show read (some (parameter text)) = .string text ↔ text ≠ [] ∧ Utf16.WellFormed text ∧ parse (parameter text) = none
      by_cases empty : text = []
      · subst empty
        exact iff_of_false (fun same => by cases same) fun kept => kept.1 rfl
      · have nonempty : parameter text ≠ [] := by
          intro nothing
          have size := Utf16.length_of_to_text text
          rw [show Utf16.toText text = [] from nothing] at size
          exact empty (List.length_eq_zero_iff.mp size.symm)
        cases parsed : parse (parameter text) with
        | some value =>
            rw [read_parsed _ value nonempty parsed]
            refine iff_of_false ?_ fun kept => by cases kept.2.2
            rintro rfl
            exact Json.parse_not_itself _ _ (Utf16.length_of_to_text text).symm parsed
        | none =>
            rw [read_plain _ nonempty parsed]
            constructor
            · exact fun same => ⟨empty, Value.string.inj same, rfl⟩
            · exact fun kept => congrArg Value.string kept.2.1

end Values

section Runs

def Op.key : Op → JsString
  | .store key _ _ => key
  | .get key => key
  | .has key => key
  | .delete key => key

-- Keys that UTF-8 keeps apart, values that come back, and a time to live that
-- the test for a missing one does not hide.
def Faithful : Op → Prop
  | .store key data seconds => Utf16.WellFormed key ∧ Kept data ∧ seconds ≠ some 0
  | op => Utf16.WellFormed op.key

def entryOf (now : Int) : Data × Option Nat × Nat → RedisEntry
  | (data, seconds, ago) => ⟨data.sent, seconds.map fun n => now - ago + n * 1000⟩

def Holds (redis : Redis) (history : List (Nat × Op)) : Prop :=
  ∀ key, Utf16.WellFormed key → ∀ last, ExpiringMap.latest key 0 history = some last →
    redis.strings (parameter key) = last.map (entryOf redis.now)

theorem parameter_injective (a b : JsString) (safeA : Utf16.WellFormed a) (safeB : Utf16.WellFormed b)
    (same : parameter a = parameter b) : a = b := by
  rw [← safeA, ← safeB]
  exact congrArg Utf16.ofText same

theorem entry_later (now : Int) (elapsed : Nat) (last : Option (Data × Option Nat × Nat)) :
    (ExpiringMap.later elapsed last).map (entryOf (now + elapsed)) = last.map (entryOf now) := by
  cases last with
  | none => rfl
  | some entry =>
      obtain ⟨data, seconds, ago⟩ := entry
      cases seconds with
      | none => rfl
      | some n =>
          have time : now + elapsed - ((ago + elapsed : Nat) : Int) + n * 1000 = now - ago + n * 1000 := by omega
          show some (RedisEntry.mk data.sent (some (now + elapsed - ((ago + elapsed : Nat) : Int) + n * 1000))) = _
          rw [time]
          rfl

theorem holds_kept (redis next : Redis) (history : List (Nat × Op)) (elapsed : Nat) (op : Op) (holds : Holds redis history)
    (now : next.now = redis.now + elapsed) (key : JsString) (safe : Utf16.WellFormed key) (kept : op.effect key = .kept)
    (same : next.strings (parameter key) = redis.strings (parameter key)) (last : Option (Data × Option Nat × Nat))
    (latest : ExpiringMap.latest key 0 ((elapsed, op) :: history) = some last) :
    next.strings (parameter key) = last.map (entryOf next.now) := by
  rw [ExpiringMap.latest_now, kept] at latest
  obtain ⟨before, known, rfl⟩ := Option.map_eq_some_iff.mp latest
  rw [same, holds key safe before known, now, entry_later]

theorem perform_holds (redis : Redis) (history : List (Nat × Op)) (elapsed : Nat) (op : Op) (faithful : Faithful op)
    (holds : Holds redis history) :
    ∃ answer next, perform { redis with now := redis.now + elapsed } op = .ok (answer, next) ∧
      Holds next ((elapsed, op) :: history) := by
  cases op with
  | store target data seconds =>
      obtain ⟨safeTarget, -, truthy⟩ := faithful
      let next : Redis := { redis with
        now := redis.now + elapsed
        strings := Function.update redis.strings (parameter target)
          (some (entryOf (redis.now + elapsed) (data, seconds, 0))) }
      refine ⟨.done, next, ?_, fun key safe last latest => ?_⟩
      · cases seconds with
        | none => simp [perform, store, Redis.exec, next, entryOf, bind, Except.bind, pure, Except.pure]
        | some n =>
            have positive : n ≠ 0 := fun zero => truthy (congrArg some zero)
            simp [perform, store, Redis.exec, next, entryOf, bind, Except.bind, pure, Except.pure, positive, Option.filter,
              Nat.pos_of_ne_zero positive]
      · by_cases mine : target = key
        · subst mine
          rw [ExpiringMap.latest_now, ExpiringMap.Op.effect, if_pos rfl] at latest
          cases latest
          exact Function.update_self _ _ _
        · refine holds_kept redis next history elapsed (.store target data seconds) holds rfl key safe (if_neg mine) ?_ last latest
          exact Function.update_of_ne (fun same => mine (parameter_injective _ _ safeTarget safe same.symm)) _ _
  | get target =>
      refine ⟨_, { redis with now := redis.now + elapsed }, rfl, fun key safe last latest => ?_⟩
      exact holds_kept redis { redis with now := redis.now + elapsed } history elapsed _ holds rfl key safe rfl rfl last latest
  | has target =>
      refine ⟨_, { redis with now := redis.now + elapsed }, rfl, fun key safe last latest => ?_⟩
      exact holds_kept redis { redis with now := redis.now + elapsed } history elapsed _ holds rfl key safe rfl rfl last latest
  | delete target =>
      let next : Redis := { redis with
        now := redis.now + elapsed
        strings := Function.update redis.strings (parameter target) none
        sets := Function.update redis.sets (parameter target) [] }
      refine ⟨.done, next, rfl, fun key safe last latest => ?_⟩
      by_cases mine : target = key
      · subst mine
        rw [ExpiringMap.latest_now, ExpiringMap.Op.effect, if_pos rfl] at latest
        cases latest
        exact Function.update_self _ _ _
      · refine holds_kept redis next history elapsed (.delete target) holds rfl key safe (if_neg mine) ?_ last latest
        exact Function.update_of_ne (fun same => mine (parameter_injective _ _ faithful safe same.symm)) _ _

def shown (answer : Option Data) : Value := (answer.map Data.asValue).getD .null

def Correct (history : List (Nat × Op)) (elapsed : Nat) : Op → Answer → Prop
  | .get key, answer => ∀ entry, ExpiringMap.expected key elapsed history = some entry → answer = .got (shown entry)
  | .has key, answer => ∀ entry, ExpiringMap.expected key elapsed history = some entry → answer = .there entry.isSome
  | _, answer => answer = .done

theorem live_expected (redis : Redis) (history : List (Nat × Op)) (elapsed : Nat) (holds : Holds redis history) (key : JsString)
    (safe : Utf16.WellFormed key) (entry : Option Data) (known : ExpiringMap.expected key elapsed history = some entry) :
    (Redis.live { redis with now := redis.now + elapsed } (parameter key)).map RedisEntry.value = entry.map Data.sent ∧
      ∀ data, entry = some data → ∃ before seconds, (before, ExpiringMap.Op.store key data seconds) ∈ history := by
  have moved := ExpiringMap.latest_later key 0 elapsed history
  rw [Nat.zero_add] at moved
  rw [ExpiringMap.expected, moved] at known
  obtain ⟨now, latest, found⟩ := Option.map_eq_some_iff.mp known
  obtain ⟨last, before, rfl⟩ := Option.map_eq_some_iff.mp latest
  have stored := holds key safe last before
  cases last with
  | none =>
      cases found
      simp only [Redis.live, stored]
      exact ⟨rfl, fun data impossible => by cases impossible⟩
  | some touched =>
      obtain ⟨data, seconds, ago⟩ := touched
      have source := ExpiringMap.latest_stored key 0 history data seconds ago before
      have filtered : Redis.live { redis with now := redis.now + elapsed } (parameter key) =
          if ExpiringMap.alive seconds (ago + elapsed) then some (entryOf redis.now (data, seconds, ago)) else none := by
        refine ((congrArg (Option.filter _) stored).trans Option.filter_some).trans ?_
        cases seconds with
        | none => rfl
        | some n =>
            have time : redis.now + elapsed < redis.now - ago + (n : Int) * 1000 ↔ ago + elapsed < n * 1000 := by omega
            have same : decide (redis.now + elapsed < redis.now - ago + (n : Int) * 1000) =
              ExpiringMap.alive (some n) (ago + elapsed) := decide_eq_decide.mpr time
            rw [← same]
            rfl
      simp only [ExpiringMap.later, Option.map_some, Option.bind_some] at found
      rw [filtered]
      cases verdict : ExpiringMap.alive seconds (ago + elapsed) with
      | true =>
          rw [verdict] at found
          cases found
          exact ⟨rfl, fun other same => by cases same; exact ⟨_, _, source.choose_spec⟩⟩
      | false =>
          rw [verdict] at found
          cases found
          exact ⟨rfl, fun other impossible => by cases impossible⟩

theorem perform_correct (redis : Redis) (history : List (Nat × Op)) (elapsed : Nat) (op : Op) (faithful : Faithful op)
    (earlier : ∀ step ∈ history, Faithful step.2) (holds : Holds redis history) (answer : Answer) (next : Redis)
    (performed : perform { redis with now := redis.now + elapsed } op = .ok (answer, next)) :
    Correct history elapsed op answer := by
  cases op with
  | store key data seconds =>
      simp only [perform] at performed
      cases stored : store { redis with now := redis.now + elapsed } key data seconds with
      | error fault => simp [stored, bind, Except.bind] at performed
      | ok left =>
          rw [stored] at performed
          cases performed
          rfl
  | get key =>
      intro entry known
      obtain ⟨live, source⟩ := live_expected redis history elapsed holds key faithful entry known
      have got : answer = .got (read (Option.map RedisEntry.value
          (Redis.live { redis with now := redis.now + elapsed } (parameter key)))) := by
        cases performed
        rfl
      rw [got, live]
      cases entry with
      | none => rfl
      | some data =>
          obtain ⟨before, seconds, stored⟩ := source data rfl
          exact congrArg Answer.got ((read_sent_iff data).mpr (earlier _ stored).2.1)
  | has key =>
      intro entry known
      obtain ⟨live, -⟩ := live_expected redis history elapsed holds key faithful entry known
      have present : (Redis.live { redis with now := redis.now + elapsed } (parameter key)).isSome = entry.isSome := by
        rw [← Option.isSome_map (f := RedisEntry.value), live, Option.isSome_map]
      cases performed
      exact congrArg Answer.there present
  | delete key =>
      cases performed
      rfl

-- In a run, the answer to each operation is that of the map that the operations
-- before it make.
def Expires (redis : Redis) (steps : List (Nat × Op)) : Prop :=
  ∃ answers left, run redis steps = .ok (answers, left) ∧
    ∀ early elapsed op late, steps = early ++ (elapsed, op) :: late →
      ∃ answer, answers[early.length]? = some answer ∧ Correct early.reverse elapsed op answer

theorem run_correct (steps : List (Nat × Op)) (redis : Redis) (history : List (Nat × Op))
    (faithful : ∀ step ∈ steps, Faithful step.2) (earlier : ∀ step ∈ history, Faithful step.2) (holds : Holds redis history) :
    ∃ answers left, run redis steps = .ok (answers, left) ∧
      ∀ early elapsed op late, steps = early ++ (elapsed, op) :: late →
        ∃ answer, answers[early.length]? = some answer ∧ Correct (early.reverse ++ history) elapsed op answer := by
  induction steps generalizing redis history with
  | nil => exact ⟨[], redis, rfl, fun early elapsed op late split => by simp at split⟩
  | cons step rest ih =>
      obtain ⟨elapsed, op⟩ := step
      have mine : Faithful op := faithful (elapsed, op) (by simp)
      obtain ⟨answer, next, performed, kept⟩ := perform_holds redis history elapsed op mine holds
      have correct := perform_correct redis history elapsed op mine earlier holds answer next performed
      obtain ⟨answers, left, ran, all⟩ := ih next ((elapsed, op) :: history)
        (fun step member => faithful step (List.mem_cons_of_mem _ member)) (List.forall_mem_cons.mpr ⟨mine, earlier⟩) kept
      refine ⟨answer :: answers, left, ?_, fun early time operation late split => ?_⟩
      · simp only [run, performed, bind, Except.bind, ran, pure, Except.pure]
      · cases early with
        | nil =>
            cases split
            exact ⟨answer, rfl, correct⟩
        | cons first others =>
            cases split
            obtain ⟨reply, there, right⟩ := all others time operation late rfl
            exact ⟨reply, there, by simpa using right⟩

end Runs

theorem adapter_expires (redis : Redis) (steps : List (Nat × Op)) (faithful : ∀ step ∈ steps, Faithful step.2) :
    (∀ data : Data, read (some data.sent) = data.asValue ↔ Kept data) ∧ Expires redis steps := by
  obtain ⟨answers, left, ran, all⟩ := run_correct steps redis [] faithful (fun step absent => by cases absent)
    fun key safe last absent => by cases absent
  refine ⟨read_sent_iff, answers, left, ran, fun early elapsed op late split => ?_⟩
  obtain ⟨answer, there, correct⟩ := all early elapsed op late split
  exact ⟨answer, there, by rwa [List.append_nil] at correct⟩

def blacklistKey : JsString := Utf16.ofText "blacklist:jti:7".toList

theorem one_is_number : IsNumber ['1'] := rfl

def blacklisted : List (Nat × Op) :=
  [(0, .store blacklistKey (.number ['1'] one_is_number) (some 60)), (59999, .get blacklistKey), (1, .get blacklistKey)]

theorem adapter_expires_blacklist : Expires Redis.empty blacklisted := by
  refine (adapter_expires Redis.empty blacklisted fun step member => ?_).2
  simp only [blacklisted, List.mem_cons, List.not_mem_nil, or_false] at member
  rcases member with rfl | rfl | rfl
  · exact ⟨by decide, trivial, by decide⟩
  · exact (by decide : Utf16.WellFormed blacklistKey)
  · exact (by decide : Utf16.WellFormed blacklistKey)

-- A text of digits comes back as a number, the empty text as null, and with no
-- seconds to live the value stays.
theorem stored_values_differ :
    ¬ Expires Redis.empty [(0, .store blacklistKey (.string (Utf16.ofText "123".toList)) none), (0, .get blacklistKey)] ∧
    ¬ Expires Redis.empty [(0, .store blacklistKey (.string []) none), (0, .get blacklistKey)] ∧
    ¬ Expires Redis.empty
      [(0, .store blacklistKey (.number ['1'] one_is_number) (some 0)), (1000, .get blacklistKey)] := by
  refine ⟨?_, ?_, ?_⟩
  · rintro ⟨answers, left, ran, all⟩
    obtain ⟨answer, there, correct⟩ := all [_] 0 (.get blacklistKey) [] rfl
    cases ran
    cases there
    cases correct _ rfl
  · rintro ⟨answers, left, ran, all⟩
    obtain ⟨answer, there, correct⟩ := all [_] 0 (.get blacklistKey) [] rfl
    cases ran
    cases there
    cases correct _ rfl
  · rintro ⟨answers, left, ran, all⟩
    obtain ⟨answer, there, correct⟩ := all [_] 1000 (.get blacklistKey) [] rfl
    cases ran
    cases there
    cases correct _ rfl

end RedisClientAdapter

end RateWise
