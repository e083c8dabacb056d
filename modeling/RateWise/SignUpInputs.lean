import RateWise.Inputs
import RateWise.Sessions
import RateWise.Solo

set_option autoImplicit false

namespace RateWise

open Interleave
open ReadCommitted

namespace Graphql

structure SignUpInput where
  username : JsString
  email : JsString
  password : JsString
deriving DecidableEq

namespace SignUpInput

def transform (input : SignUpInput) : SignUpInput := { input with username := trim input.username }

def valid (isEmail : JsString → Bool) (presentationSequences : JsString → Nat) (input : SignUpInput) : Bool :=
  hasLength presentationSequences AUTH_RULES.USERNAME input.username && isEmail input.email &&
    hasLength presentationSequences AUTH_RULES.PASSWORD input.password

def piped (isEmail : JsString → Bool) (presentationSequences : JsString → Nat) (input : SignUpInput) : Option SignUpInput :=
  if input.transform.valid isEmail presentationSequences then some input.transform.transform else none

end SignUpInput

structure SignInInput where
  email : JsString
  password : JsString
deriving DecidableEq

def SignInInput.valid (isEmail : JsString → Bool) (input : SignInInput) : Bool := isEmail input.email

end Graphql

def signUpColumns (user : Graphql.SignUpInput) (passwordHash : Text) : SignUpInput :=
  ⟨parameter user.username, parameter user.email, passwordHash⟩

def usernameChar (c : Char) : Bool := ('a' ≤ c && c ≤ 'z') || ('0' ≤ c && c ≤ '9') || c == '_'

-- The CHECK constraints of the account table; lower is LOWER of PostgreSQL.
def accountChecks (lower : Text → Text) (columns : SignUpInput) : Bool :=
  columns.username == lower columns.username &&
  decide (3 ≤ columns.username.length ∧ columns.username.length ≤ 30) &&
  (!columns.username.isEmpty && columns.username.all usernameChar) &&
  columns.email == lower columns.email &&
  decide (columns.email.length ≤ 254) &&
  columns.email.contains '@'

-- createOne against a server that has the CHECK constraints: a NUL in a
-- parameter or a violated CHECK is no duplicate key.
def createAccount (lower : Text → Text) (columns : SignUpInput) (row : Generated) : Async Account :=
  if [columns.username, columns.email, columns.passwordHash].any hasNul then reject .internalServerError
  else if !accountChecks lower columns then reject .internalServerError
  else UsersService.createOne row columns.username columns.email columns.passwordHash

def usernameOrEmailTaken (t : Tables) (row : Generated) (columns : SignUpInput) : Bool :=
  t.accounts.any fun other => other.id = row.id || other.username = columns.username || other.email = columns.email

def pendingAccount (columns : SignUpInput) (row : Generated) : Account :=
  ⟨row, columns.username, columns.email, columns.passwordHash, [.reviewer, .creator], .pendingVerification⟩

section SignUp

variable {hashtext : Text → Int32}

theorem insert_account_refuses (t : Tables) (row : Generated) (columns : SignUpInput) :
    t.refuses (.insertAccount (pendingAccount columns row)) = Tables.uniqueFault (usernameOrEmailTaken t row columns) := by
  have verdict : t.violation (.insertAccount (pendingAccount columns row)) =
      Tables.uniqueFault (usernameOrEmailTaken t row columns) := rfl
  simp only [Tables.refuses, Sql.uuids, List.all_nil, if_true, Tables.attempts, List.findSome?_cons, List.findSome?_nil,
    verdict]
  cases usernameOrEmailTaken t row columns <;> rfl

theorem create_one_yields (columns : SignUpInput) (row : Generated) (world : World)
    (post : Except Err Account → World → Option (Tx schema Int32) → Prop)
    (taken : usernameOrEmailTaken world.db row columns = true → post (.error (.gql .conflict "User already exists")) world none)
    (created : usernameOrEmailTaken world.db row columns = false → post (.ok (pendingAccount columns row))
      ⟨world.db.apply (.insertAccount (pendingAccount columns row)), world.store⟩ none) :
    Yields (engine hashtext) (UsersService.createOne row columns.username columns.email columns.passwordHash) world none post := by
  have refuses := insert_account_refuses world.db row columns
  refine yields_catching _ _ _ _ _ (yields_bind _ _ _ _ _ (yields_single (S := schema) (C := Redis.commands) _
    (Sql.insertAccount (pendingAccount columns row)) world _ ?_ ?_))
  · intro fault verdict
    have found : world.db.refuses (.insertAccount (pendingAccount columns row)) = some fault := verdict
    rw [refuses] at found
    cases busy : usernameOrEmailTaken world.db row columns with
    | false =>
        rw [busy] at found
        cases found
    | true =>
        rw [busy] at found
        cases found
        exact taken busy
  · intro verdict
    have found : world.db.refuses (.insertAccount (pendingAccount columns row)) = none := verdict
    rw [refuses] at found
    cases busy : usernameOrEmailTaken world.db row columns with
    | false => exact created busy
    | true =>
        rw [busy] at found
        cases found

end SignUp

section Constraints

variable {isEmail : JsString → Bool} {presentationSequences : JsString → Nat} {lower : Text → Text}

def Admissible (lower : Text → Text) (user : Graphql.SignUpInput) : Prop :=
  (∀ c ∈ parameter user.username, usernameChar c = true) ∧ lower (parameter user.email) = parameter user.email ∧
    (parameter user.email).length ≤ 254

theorem piped_sign_up_valid (input user : Graphql.SignUpInput)
    (accepted : input.piped isEmail presentationSequences = some user) : user.valid isEmail presentationSequences = true := by
  have twice : input.transform.transform = input.transform := by
    simp only [Graphql.SignUpInput.transform, trim_trim]
  simp only [Graphql.SignUpInput.piped, twice] at accepted
  split at accepted
  · rename_i valid
    cases accepted
    exact valid
  · cases accepted

theorem username_no_selectors (name : JsString) (plain : ∀ c ∈ parameter name, usernameChar c = true) : NoSelectors name := by
  intro u member
  constructor
  · rintro rfl
    exact absurd (plain _ (Utf16.mem_to_text name 0xFE0E member (by decide))) (by decide)
  · rintro rfl
    exact absurd (plain _ (Utf16.mem_to_text name 0xFE0F member (by decide))) (by decide)

theorem account_checks_iff (plain : ∀ value, NoSelectors value → presentationSequences value = 0)
    (lowered : ∀ text, (∀ c ∈ text, usernameChar c = true) → lower text = text)
    (address : ∀ value, isEmail value = true → '@' ∈ parameter value ∧ hasNul (parameter value) = false)
    (user : Graphql.SignUpInput) (passwordHash : Text) (valid : user.valid isEmail presentationSequences = true) :
    accountChecks lower (signUpColumns user passwordHash) = true ↔ Admissible lower user := by
  simp only [Graphql.SignUpInput.valid, Bool.and_eq_true] at valid
  obtain ⟨⟨named, mailed⟩, -⟩ := valid
  have atSign : (parameter user.email).contains '@' = true := List.elem_eq_true_of_mem (address _ mailed).1
  simp only [accountChecks, Bool.and_eq_true, beq_iff_eq, decide_eq_true_eq, List.all_eq_true, Bool.not_eq_true']
  simp only [signUpColumns, atSign, and_true]
  constructor
  · rintro ⟨⟨⟨⟨-, -⟩, -, chars⟩, same⟩, short⟩
    exact ⟨chars, same.symm, short⟩
  · rintro ⟨chars, same, short⟩
    have counted := has_length_short presentationSequences _ _ named (plain _ (username_no_selectors _ chars))
    have between := (has_length_between presentationSequences _ _ named).mpr counted
    simp only [lengthBetween, Bool.and_eq_true, decide_eq_true_eq] at between
    have enough : 3 ≤ (parameter user.username).length := between.1
    refine ⟨⟨⟨⟨(lowered _ chars).symm, between⟩, ?_, chars⟩, same.symm⟩, short⟩
    cases empty : parameter user.username with
    | nil =>
        rw [empty] at enough
        cases enough
    | cons c rest => rfl

theorem username_no_nul (text : Text) (chars : ∀ c ∈ text, usernameChar c = true) : hasNul text = false := by
  rw [hasNul, ← Bool.not_eq_true, List.contains_iff_mem]
  intro member
  exact absurd (chars _ member) (by decide)

def Stored (columns : SignUpInput) (row : Generated) (before after : Tables) (result : Except Err Account) : Prop :=
  result = .ok (pendingAccount columns row) ∧ after = before.apply (.insertAccount (pendingAccount columns row))

end Constraints

theorem sign_up_stored_iff (hashtext : Text → Int32) (isEmail : JsString → Bool) (presentationSequences : JsString → Nat)
    (lower : Text → Text) (plain : ∀ value, NoSelectors value → presentationSequences value = 0)
    (lowered : ∀ text, (∀ c ∈ text, usernameChar c = true) → lower text = text)
    (address : ∀ value, isEmail value = true → '@' ∈ parameter value ∧ hasNul (parameter value) = false)
    (world : World) (input user : Graphql.SignUpInput) (accepted : input.piped isEmail presentationSequences = some user)
    (passwordHash : Text) (hashed : hasNul passwordHash = false) (row : Generated) :
    Yields (engine hashtext) (createAccount lower (signUpColumns user passwordHash) row) world none fun result left _ =>
      (Stored (signUpColumns user passwordHash) row world.db left.db result ∨
        result = .error (.gql .conflict "User already exists")) ↔ Admissible lower user := by
  have valid := piped_sign_up_valid input user accepted
  have checks := account_checks_iff plain lowered address user passwordHash valid
  have mailed : isEmail user.email = true := by
    simp only [Graphql.SignUpInput.valid, Bool.and_eq_true] at valid
    exact valid.1.2
  have lost : ¬ (Stored (signUpColumns user passwordHash) row world.db world.db (.error .internalServerError) ∨
      (.error .internalServerError : Except Err Account) = .error (.gql .conflict "User already exists")) := by
    rintro (⟨impossible, -⟩ | impossible) <;> cases impossible
  have texts : [parameter user.username, parameter user.email, passwordHash].any hasNul =
      hasNul (parameter user.username) := by
    simp [(address _ mailed).2, hashed]
  by_cases admissible : Admissible lower user
  · have passes := checks.mpr admissible
    have free : [(signUpColumns user passwordHash).username, (signUpColumns user passwordHash).email,
        (signUpColumns user passwordHash).passwordHash].any hasNul = false :=
      texts.trans (username_no_nul _ admissible.1)
    have whole : createAccount lower (signUpColumns user passwordHash) row = UsersService.createOne row
        (signUpColumns user passwordHash).username (signUpColumns user passwordHash).email
        (signUpColumns user passwordHash).passwordHash := by
      simp only [createAccount, free, passes]
      rfl
    rw [whole]
    refine create_one_yields (signUpColumns user passwordHash) row world _ (fun _ => ?_) fun _ => ?_
    · exact iff_of_true (.inr rfl) admissible
    · exact iff_of_true (.inl ⟨rfl, rfl⟩) admissible
  · have fails : accountChecks lower (signUpColumns user passwordHash) = false := by
      rw [← Bool.not_eq_true, checks]
      exact admissible
    have refused : createAccount lower (signUpColumns user passwordHash) row = reject .internalServerError := by
      rw [createAccount, fails]
      split <;> rfl
    rw [refused]
    exact iff_of_false lost admissible

theorem lower_username_char (c : Char) (plain : usernameChar c = true) : c.toLower = c := by
  simp only [usernameChar, Bool.or_eq_true, Bool.and_eq_true, decide_eq_true_eq, beq_iff_eq] at plain
  rcases plain with (⟨low, -⟩ | ⟨-, high⟩) | rfl
  · unfold Char.toLower
    rw [dif_neg]
    rintro ⟨-, below⟩
    exact absurd (UInt32.le_trans low below) (by decide)
  · unfold Char.toLower
    rw [dif_neg]
    rintro ⟨above, -⟩
    exact absurd (UInt32.le_trans above high) (by decide)
  · decide

def annMail : JsString := Utf16.ofText "ann@mail.com".toList

def annPassword : JsString := Utf16.ofText "correct horse".toList

def annInput (username : JsString) : Graphql.SignUpInput := ⟨username, annMail, annPassword⟩

def knowsAnn (value : JsString) : Bool := value == annMail

def annRow : Generated := ⟨⟨repeated '6', by decide⟩, 0⟩

def nobody : World := ⟨Tables.empty, Redis.empty⟩

theorem sign_up_stored_iff_lowercase :
    Yields (engine fun _ => 0) (createAccount lowerCase (signUpColumns (annInput (Utf16.ofText "ann".toList)) "hash".toList)
      annRow) nobody none fun result left _ =>
        (Stored (signUpColumns (annInput (Utf16.ofText "ann".toList)) "hash".toList) annRow nobody.db left.db result ∨
          result = .error (.gql .conflict "User already exists")) ↔
            Admissible lowerCase (annInput (Utf16.ofText "ann".toList)) :=
  sign_up_stored_iff (fun _ => 0) knowsAnn (fun _ => 0) lowerCase (fun _ _ => rfl)
    (fun text plain => (List.map_congr_left fun c member => lower_username_char c (plain c member)).trans (List.map_id text))
    (fun value known => by rw [eq_of_beq known]; decide) nobody (annInput (Utf16.ofText "ann".toList)) _ (by decide)
    "hash".toList (by decide) annRow

-- A capital letter passes the decorators and fails a CHECK.
theorem capital_username_fails :
    (annInput (Utf16.ofText "Ann".toList)).piped knowsAnn (fun _ => 0) = some (annInput (Utf16.ofText "Ann".toList)) ∧
      ((createAccount lowerCase (signUpColumns (annInput (Utf16.ofText "Ann".toList)) "hash".toList) annRow).solo
        (engine fun _ => 0) nobody none).1 = .error .internalServerError := by
  decide

end RateWise
