import RateWise.SettledCalls

set_option autoImplicit false

namespace RateWise

namespace Settling

-- What is thrown besides AggregateErrors: an Error, one of its other two classes
-- that the filter tells apart, or no Error.
inductive Exception where
  | error (message : Text)
  | graphqlError (message : Text) (code : Option Text)
  | httpException (message : Text)
  | other (text : Text)
deriving DecidableEq

def Exception.message : Exception → Text
  | .error message => message
  | .graphqlError message _ => message
  | .httpException message => message
  | .other text => text

namespace Reason

def message : Reason Exception → Text
  | .plain value => value.message
  | .aggregateError _ message => message

-- AggregateError is a subclass of Error.
def instanceOfError : Reason Exception → Bool
  | .plain (.other _) => false
  | _ => true

end Reason

structure LogEntry where
  message : Text
  context : Option Text
deriving DecidableEq

namespace SystemLogger

def logAnyException (exception : Reason Exception) (context : Text) : List LogEntry :=
  if exception.instanceOfError then [⟨exception.message, some context⟩]
  else match exception with
    | .aggregateError errors _ => errors.map fun e => ⟨e.message, none⟩
    | .plain value => [⟨value.message, none⟩]

end SystemLogger

def serviceUnavailableMessages : List Text :=
  ["Stream isn't writeable and enableOfflineQueue options is false".toList, "getaddrinfo ENOTFOUND postgres".toList]

def isServiceUnavailableError (exception : Reason Exception) : Bool := exception.message ∈ serviceUnavailableMessages

def isRequestAbortedError (error : Reason Exception) : Bool := error.message = "request aborted".toList

namespace COMMON_MESSAGES

def INTERNAL_SERVER_ERROR : Text := "Internal server error".toList

def REQUEST_ABORTED : Text := "Client disconnected before request finished".toList

end COMMON_MESSAGES

namespace GqlHttpError

def BadRequest (message : Text) : Exception := .graphqlError message (some "BAD_REQUEST".toList)

def ServiceUnavailable : Exception := .graphqlError "Service Unavailable".toList (some "SERVICE_UNAVAILABLE".toList)

def InternalServerError : Exception := .graphqlError COMMON_MESSAGES.INTERNAL_SERVER_ERROR (some "INTERNAL_SERVER_ERROR".toList)

end GqlHttpError

inductive GqlContextType where
  | http
  | graphql
deriving DecidableEq

namespace CatchEverythingFilter

def name : Text := "CatchEverythingFilter".toList

def logAnyException (exception : Reason Exception) : List LogEntry := SystemLogger.logAnyException exception name

-- The status of a GraphQLError, or the message of the Error that is thrown for it.
-- httpStatus is the enumeration of the framework.
def convertGqlErrorToHttpError (httpStatus : Text → Option Nat) (code : Option Text) : Except Text Nat :=
  match code with
  | none => .error "Failed to transform GraphQLError into HttpError: No code provided".toList
  | some [] => .error "Failed to transform GraphQLError into HttpError: No code provided".toList
  | some code => match httpStatus code with
    | none => .error "Failed to transform GraphQLError into HttpError: Invalid code".toList
    | some statusCode => .ok statusCode

def normalizeGqlError (exception : Reason Exception) : Reason Exception × List LogEntry :=
  if exception.instanceOfError && isServiceUnavailableError exception then (.plain GqlHttpError.ServiceUnavailable, [])
  else if exception.instanceOfError && isRequestAbortedError exception then
    (.plain (GqlHttpError.BadRequest COMMON_MESSAGES.REQUEST_ABORTED), [])
  else match exception with
    | .aggregateError errors _ => (.plain GqlHttpError.InternalServerError, errors.flatMap logAnyException)
    | _ => (exception, [])

def handleHttpContext (httpStatus : Text → Option Nat) (exception : Reason Exception) : List LogEntry :=
  match exception with
  | .plain (.graphqlError _ code) => match convertGqlErrorToHttpError httpStatus code with
    | .ok _ => []
    | .error message => logAnyException (.plain (.error message))
  | .plain (.httpException _) => []
  | _ => ⟨"Internal server error".toList, none⟩ :: logAnyException exception

def handleGqlContext (exception : Reason Exception) : List LogEntry :=
  match exception with
  | .plain (.graphqlError _ _) => []
  | .plain (.httpException _) =>
      [⟨"Internal server error".toList, none⟩, ⟨"HttpException thrown in a GraphQL context".toList, none⟩]
  | _ => ⟨"Internal server error".toList, none⟩ :: logAnyException exception

def catchException (httpStatus : Text → Option Nat) (host : GqlContextType) (exception : Reason Exception) : List LogEntry :=
  let (normalized, logged) := normalizeGqlError exception
  logged ++ match host with
    | .http => handleHttpContext httpStatus normalized
    | .graphql => handleGqlContext normalized

end CatchEverythingFilter

-- How a thrown value gets to the log: from a catch block, or from the filter.
inductive Route where
  | caught (context : Text)
  | filtered (host : GqlContextType)

def Route.log (httpStatus : Text → Option Nat) : Route → Reason Exception → List LogEntry
  | .caught context, exception => SystemLogger.logAnyException exception context
  | .filtered host, exception => CatchEverythingFilter.catchException httpStatus host exception

def Written (reasons : List (Reason Exception)) (log : List LogEntry) : Prop :=
  ∀ reason ∈ reasons, ∃ entry ∈ log, entry.message = reason.message

section Shapes

variable {ε α : Type}

def Shape (reasons : List (Reason ε)) (thrown : Reason ε) : Prop :=
  reasons = [thrown] ∨ 2 ≤ reasons.length ∧ ∃ errors, thrown = .aggregateError errors concurrentFailure

mutual

-- The failures as what is thrown groups them: those below each promise that
-- rejects, in the call where more than one does.
def Operation.groups : Operation ε α → List (List (Reason ε))
  | .leaf (.error reason) => [[reason]]
  | .leaf (.ok _) => []
  | .call promises => match promises.failing with
    | [(_, below)] => below
    | several => several.map Prod.fst

def Operations.failing : Operations ε α → List (List (Reason ε) × List (List (Reason ε)))
  | .nil => []
  | .cons first rest => match first.reasons with
    | [] => rest.failing
    | reason :: more => (reason :: more, first.groups) :: rest.failing

end

def Fits (promise : List (Reason ε) × List (List (Reason ε))) (thrown : Reason ε) : Prop :=
  Shape promise.1 thrown ∧ (2 ≤ promise.1.length →
    ∃ errors, thrown = .aggregateError errors concurrentFailure ∧ List.Forall₂ Shape promise.2 errors)

theorem shape_nonempty (reasons : List (Reason ε)) (thrown : Reason ε) (shape : Shape reasons thrown) : 1 ≤ reasons.length := by
  rcases shape with rfl | ⟨several, -⟩
  · exact le_refl _
  · omega

theorem failing_reasons (promises : Operations ε α) : promises.reasons = (promises.failing.map Prod.fst).flatten := by
  cases promises with
  | nil => rfl
  | cons first rest =>
      rw [Operations.reasons, Operations.failing, failing_reasons rest]
      cases first.reasons <;> rfl

mutual

theorem thrown_fits (operation : Operation ε α) (thrown : Reason ε) (outcome : operation.outcome = .error thrown) :
    Fits (operation.reasons, operation.groups) thrown := by
  cases operation with
  | leaf result =>
      cases result with
      | ok value => cases outcome
      | error reason =>
          cases outcome
          exact ⟨.inl rfl, fun several => absurd several (by simp [Operation.reasons])⟩
  | call promises =>
      have fits := failing_fits promises
      have whole := failing_reasons promises
      rw [Operation.outcome, runSettledOrThrow] at outcome
      rw [Operation.reasons, Operation.groups, whole]
      generalize promises.failing = failing at fits
      generalize rejections promises.outcomes = reasons at fits outcome
      cases fits with
      | nil => cases outcome
      | cons one others =>
          cases others with
          | nil =>
              cases outcome
              simpa using one
          | cons two others =>
              cases outcome
              refine ⟨.inr ⟨?_, _, rfl⟩, fun _ => ⟨_, rfl, ?_⟩⟩
              · have first := shape_nonempty _ _ one.1
                have second := shape_nonempty _ _ two.1
                simp only [List.map_cons, List.flatten_cons, List.length_append]
                omega
              · exact List.forall₂_map_left_iff.mpr (.cons one.1 (.cons two.1 (others.imp fun _ _ fits => fits.1)))

theorem failing_fits (promises : Operations ε α) : List.Forall₂ Fits promises.failing (rejections promises.outcomes) := by
  cases promises with
  | nil => exact .nil
  | cons first rest =>
      have onward := failing_fits rest
      have reported := operation_reports first
      rw [Operations.outcomes, Operations.failing]
      cases outcome : first.outcome with
      | ok value =>
          rw [outcome] at reported
          have none : first.reasons = [] := reported
          rw [none]
          exact onward
      | error reason =>
          have fits := thrown_fits first reason outcome
          cases reasons : first.reasons with
          | nil =>
              rw [outcome] at reported
              exact absurd reasons reported.1
          | cons failure more =>
              rw [reasons] at fits
              exact .cons fits onward

end

end Shapes

theorem run_outcome {ε α : Type} (operation : Operation ε α) (order : List (List Nat)) (state : Running ε α)
    (reached : operation.launch.run order = some state) (outcome : Except (Reason ε) (Fulfilled α))
    (settled : state.outcome = some outcome) : operation.outcome = outcome := by
  obtain ⟨sound, same⟩ := launch_sound operation
  obtain ⟨sound, kept, -⟩ := run_sound operation.launch state order sound reached
  rw [(settled_outcome state sound outcome settled).2, kept, same]

section Logs

theorem logged_once (exception : Reason Exception) (context : Text) :
    ∃ place, SystemLogger.logAnyException exception context = [⟨exception.message, place⟩] := by
  unfold SystemLogger.logAnyException
  cases exception with
  | aggregateError errors message => exact ⟨some context, if_pos rfl⟩
  | plain value =>
      cases value with
      | other text => exact ⟨none, rfl⟩
      | _ => exact ⟨some context, if_pos rfl⟩

theorem written_once (reasons : List (Reason Exception)) (exception : Reason Exception) (context : Text) :
    Written reasons (SystemLogger.logAnyException exception context) ↔ ∀ reason ∈ reasons, reason.message = exception.message := by
  obtain ⟨place, logged⟩ := logged_once exception context
  simp only [Written, logged, List.mem_singleton, exists_eq_left]
  exact forall_congr' fun reason => imp_congr_right fun _ => eq_comm

theorem written_each (reasons errors : List (Reason Exception)) :
    Written reasons (errors.flatMap CatchEverythingFilter.logAnyException) ↔
      ∀ reason ∈ reasons, ∃ error ∈ errors, error.message = reason.message := by
  refine forall_congr' fun reason => imp_congr_right fun _ => ?_
  simp only [List.mem_flatMap]
  constructor
  · rintro ⟨entry, ⟨error, member, logged⟩, same⟩
    obtain ⟨place, only⟩ := logged_once error CatchEverythingFilter.name
    rw [CatchEverythingFilter.logAnyException, only, List.mem_singleton] at logged
    subst logged
    exact ⟨error, member, same⟩
  · rintro ⟨error, member, same⟩
    obtain ⟨place, only⟩ := logged_once error CatchEverythingFilter.name
    exact ⟨_, ⟨error, member, by rw [CatchEverythingFilter.logAnyException, only]; exact List.mem_singleton_self _⟩, same⟩

-- The messages of Errors that the filter takes for another one.
def replacedMessages : List Text := serviceUnavailableMessages ++ ["request aborted".toList]

def serverNotes : List Text := ["Internal server error".toList, "HttpException thrown in a GraphQL context".toList]

-- When the filter keeps a single failure: an AggregateError by the errors in it,
-- an HttpException by the note of the filter, anything else as it is.
def KeptAlone (httpStatus : Text → Option Nat) (host : GqlContextType) (reason : Reason Exception) : Prop :=
  reason.message ∉ replacedMessages ∧ match reason, host with
    | .aggregateError errors _, _ => ∃ error ∈ errors, error.message = reason.message
    | .plain (.graphqlError message code), .http =>
        CatchEverythingFilter.convertGqlErrorToHttpError httpStatus code = .error message
    | .plain (.graphqlError _ _), .graphql => False
    | .plain (.httpException _), .http => False
    | .plain (.httpException message), .graphql => message ∈ serverNotes
    | .plain _, _ => True

def groupMessage : List (Reason Exception) → Text
  | [reason] => reason.message
  | _ => concurrentFailure

-- When the log keeps the failures of a tree of calls: a single one that is
-- caught; in the filter a single one, or those that are alone in their promise.
-- The other cases say that a message is by chance the one of a line that is
-- written.
def Kept {α : Type} (httpStatus : Text → Option Nat) (operation : Operation Exception α) : Route → Prop
  | .caught _ => operation.reasons.length = 1 ∨ ∀ reason ∈ operation.reasons, reason.message = concurrentFailure
  | .filtered host => (∃ reason, operation.reasons = [reason] ∧ KeptAlone httpStatus host reason) ∨
      2 ≤ operation.reasons.length ∧ ∀ reason ∈ operation.reasons, ∃ group ∈ operation.groups, groupMessage group = reason.message

-- The codes that the filter itself gives are among those of the framework.
def KnowsCodes (httpStatus : Text → Option Nat) : Prop :=
  ∀ code ∈ ["BAD_REQUEST".toList, "SERVICE_UNAVAILABLE".toList, "INTERNAL_SERVER_ERROR".toList], (httpStatus code).isSome = true

instance (httpStatus : Text → Option Nat) : Decidable (KnowsCodes httpStatus) := inferInstanceAs (Decidable (∀ _ ∈ _, _))

variable (httpStatus : Text → Option Nat)

theorem own_unlogged (known : KnowsCodes httpStatus) (host : GqlContextType) (message code : Text)
    (own : code ∈ ["BAD_REQUEST".toList, "SERVICE_UNAVAILABLE".toList, "INTERNAL_SERVER_ERROR".toList]) :
    (match host with
      | .http => CatchEverythingFilter.handleHttpContext httpStatus (.plain (.graphqlError message (some code)))
      | .graphql => CatchEverythingFilter.handleGqlContext (.plain (.graphqlError message (some code)))) = [] := by
  cases host with
  | graphql => rfl
  | http =>
      obtain ⟨status, found⟩ := Option.isSome_iff_exists.mp (known code own)
      have named : code ≠ [] := by
        rintro rfl
        exact absurd own (by decide)
      obtain ⟨c, rest, rfl⟩ := List.exists_cons_of_ne_nil named
      simp only [CatchEverythingFilter.handleHttpContext, CatchEverythingFilter.convertGqlErrorToHttpError, found]

theorem replaced_iff (exception : Reason Exception) :
    (isServiceUnavailableError exception || isRequestAbortedError exception) = true ↔ exception.message ∈ replacedMessages := by
  simp only [isServiceUnavailableError, isRequestAbortedError, replacedMessages, Bool.or_eq_true, decide_eq_true_eq,
    List.mem_append, List.mem_singleton]

theorem replaced_unlogged (known : KnowsCodes httpStatus) (host : GqlContextType) (exception : Reason Exception)
    (isError : exception.instanceOfError = true) (replaced : exception.message ∈ replacedMessages) :
    CatchEverythingFilter.catchException httpStatus host exception = [] := by
  have either := (replaced_iff exception).mpr replaced
  unfold CatchEverythingFilter.catchException CatchEverythingFilter.normalizeGqlError
  simp only [isError, Bool.true_and]
  by_cases unavailable : isServiceUnavailableError exception = true
  · simp only [unavailable, if_true]
    exact own_unlogged httpStatus known host _ _ (by simp)
  · rw [Bool.not_eq_true] at unavailable
    have aborted : isRequestAbortedError exception = true := by simpa [unavailable] using either
    simp only [unavailable, aborted, Bool.false_eq_true, if_false, if_true]
    exact own_unlogged httpStatus known host _ _ (by simp)

theorem unreplaced_log (host : GqlContextType) (exception : Reason Exception) (own : exception.message ∉ replacedMessages) :
    CatchEverythingFilter.catchException httpStatus host exception = match exception with
      | .aggregateError errors _ => errors.flatMap CatchEverythingFilter.logAnyException ++ match host with
          | .http => CatchEverythingFilter.handleHttpContext httpStatus (.plain GqlHttpError.InternalServerError)
          | .graphql => CatchEverythingFilter.handleGqlContext (.plain GqlHttpError.InternalServerError)
      | _ => match host with
          | .http => CatchEverythingFilter.handleHttpContext httpStatus exception
          | .graphql => CatchEverythingFilter.handleGqlContext exception := by
  have neither := mt (replaced_iff exception).mp own
  simp only [Bool.or_eq_true, not_or, Bool.not_eq_true] at neither
  unfold CatchEverythingFilter.catchException CatchEverythingFilter.normalizeGqlError
  simp only [neither.1, neither.2, Bool.and_false, Bool.false_eq_true, if_false]
  cases exception <;> rfl

theorem shape_message (group : List (Reason Exception)) (thrown : Reason Exception) (shape : Shape group thrown) :
    groupMessage group = thrown.message := by
  rcases shape with rfl | ⟨several, errors, rfl⟩
  · rfl
  · obtain ⟨one, two, rest, rfl⟩ : ∃ one two rest, group = one :: two :: rest := by
      rcases group with _ | ⟨one, _ | ⟨two, rest⟩⟩
      · cases several
      · exact absurd several (by simp)
      · exact ⟨one, two, rest, rfl⟩
    rfl

theorem groups_messages (groups : List (List (Reason Exception))) (errors : List (Reason Exception))
    (fits : List.Forall₂ Shape groups errors) : groups.map groupMessage = errors.map Reason.message := by
  induction fits with
  | nil => rfl
  | cons one others ih => rw [List.map_cons, List.map_cons, shape_message _ _ one, ih]

theorem caught_kept {α : Type} (operation : Operation Exception α) (thrown : Reason Exception)
    (shape : Shape operation.reasons thrown) (context : Text) :
    Written operation.reasons (SystemLogger.logAnyException thrown context) ↔ Kept httpStatus operation (.caught context) := by
  rw [written_once, Kept]
  rcases shape with only | ⟨several, errors, rfl⟩
  · rw [only]
    exact ⟨fun _ => .inl rfl, fun _ reason member => by rw [List.mem_singleton.mp member]⟩
  · constructor
    · exact .inr
    · rintro (single | all)
      · omega
      · exact all

theorem alone_kept (known : KnowsCodes httpStatus) (host : GqlContextType) (thrown : Reason Exception)
    (isError : thrown.instanceOfError = true) :
    Written [thrown] (CatchEverythingFilter.catchException httpStatus host thrown) ↔ KeptAlone httpStatus host thrown := by
  by_cases replaced : thrown.message ∈ replacedMessages
  · rw [replaced_unlogged httpStatus known host thrown isError replaced]
    refine ⟨fun written => ?_, fun kept => absurd replaced kept.1⟩
    obtain ⟨entry, impossible, -⟩ := written thrown (List.mem_singleton_self _)
    cases impossible
  · rw [unreplaced_log httpStatus host thrown replaced]
    refine Iff.trans ?_ (and_iff_right replaced).symm
    cases thrown with
    | aggregateError errors message =>
        simp only
        have silent := own_unlogged httpStatus known host COMMON_MESSAGES.INTERNAL_SERVER_ERROR "INTERNAL_SERVER_ERROR".toList (by simp)
        have quiet : (match host with
            | .http => CatchEverythingFilter.handleHttpContext httpStatus (.plain GqlHttpError.InternalServerError)
            | .graphql => CatchEverythingFilter.handleGqlContext (.plain GqlHttpError.InternalServerError)) = [] := silent
        rw [quiet, List.append_nil, written_each]
        simp only [List.mem_singleton, forall_eq]
    | plain value =>
        simp only [Written, List.mem_singleton, forall_eq]
        cases value with
        | other text => cases isError
        | error message => cases host <;> simp [CatchEverythingFilter.handleHttpContext, CatchEverythingFilter.handleGqlContext,
            CatchEverythingFilter.logAnyException, SystemLogger.logAnyException, Reason.instanceOfError, Reason.message, Exception.message]
        | httpException message =>
            cases host with
            | http => simp [CatchEverythingFilter.handleHttpContext]
            | graphql => simp [CatchEverythingFilter.handleGqlContext, serverNotes, Reason.message, Exception.message, eq_comm]
        | graphqlError message code =>
            cases host with
            | graphql => simp [CatchEverythingFilter.handleGqlContext]
            | http =>
                cases converted : CatchEverythingFilter.convertGqlErrorToHttpError httpStatus code with
                | ok status => simp [CatchEverythingFilter.handleHttpContext, converted]
                | error failure => simp [CatchEverythingFilter.handleHttpContext, converted, CatchEverythingFilter.logAnyException,
                    SystemLogger.logAnyException, Reason.instanceOfError, Reason.message, Exception.message]

theorem several_kept (known : KnowsCodes httpStatus) (host : GqlContextType) (reasons errors : List (Reason Exception))
    (groups : List (List (Reason Exception))) (fits : List.Forall₂ Shape groups errors) :
    Written reasons (CatchEverythingFilter.catchException httpStatus host (.aggregateError errors concurrentFailure)) ↔
      ∀ reason ∈ reasons, ∃ group ∈ groups, groupMessage group = reason.message := by
  have own : (Reason.aggregateError errors concurrentFailure : Reason Exception).message ∉ replacedMessages := by
    show concurrentFailure ∉ replacedMessages
    decide
  have silent := own_unlogged httpStatus known host COMMON_MESSAGES.INTERNAL_SERVER_ERROR "INTERNAL_SERVER_ERROR".toList (by simp)
  have quiet : (match host with
      | .http => CatchEverythingFilter.handleHttpContext httpStatus (.plain GqlHttpError.InternalServerError)
      | .graphql => CatchEverythingFilter.handleGqlContext (.plain GqlHttpError.InternalServerError)) = [] := silent
  rw [unreplaced_log httpStatus host _ own]
  simp only
  rw [quiet, List.append_nil, written_each]
  refine forall_congr' fun reason => imp_congr_right fun _ => ?_
  rw [← List.mem_map, ← List.mem_map, groups_messages groups errors fits]

theorem filtered_kept {α : Type} (known : KnowsCodes httpStatus) (operation : Operation Exception α) (thrown : Reason Exception)
    (fits : Fits (operation.reasons, operation.groups) thrown)
    (areErrors : ∀ reason ∈ operation.reasons, reason.instanceOfError = true) (host : GqlContextType) :
    Written operation.reasons (CatchEverythingFilter.catchException httpStatus host thrown) ↔
      Kept httpStatus operation (.filtered host) := by
  obtain ⟨only | ⟨several, -⟩, grouped⟩ := fits
  · have only : operation.reasons = [thrown] := only
    have isError := areErrors thrown (by rw [only]; exact List.mem_singleton_self _)
    rw [Kept, only, alone_kept httpStatus known host thrown isError]
    constructor
    · exact fun kept => .inl ⟨thrown, rfl, kept⟩
    · rintro (⟨reason, same, kept⟩ | ⟨impossible, -⟩)
      · cases same
        exact kept
      · exact absurd impossible (by simp)
  · obtain ⟨errors, rfl, shapes⟩ := grouped several
    rw [Kept, several_kept httpStatus known host operation.reasons errors operation.groups shapes]
    constructor
    · exact fun kept => .inr ⟨several, kept⟩
    · rintro (⟨reason, same, -⟩ | ⟨-, kept⟩)
      · have several : 2 ≤ operation.reasons.length := several
        rw [same] at several
        exact absurd several (by simp)
      · exact kept

end Logs

-- The failures of a tree of calls are all in the log, by whatever way what is
-- thrown gets there, exactly when they are kept.
theorem failures_logged_iff {α : Type} (httpStatus : Text → Option Nat) (known : KnowsCodes httpStatus)
    (operation : Operation Exception α) (areErrors : ∀ reason ∈ operation.reasons, reason.instanceOfError = true)
    (order : List (List Nat)) (state : Running Exception α) (reached : operation.launch.run order = some state)
    (thrown : Reason Exception) (settled : state.outcome = some (.error thrown)) (route : Route) :
    Written operation.reasons (route.log httpStatus thrown) ↔ Kept httpStatus operation route := by
  have fits := thrown_fits operation thrown (run_outcome operation order state reached _ settled)
  cases route with
  | caught context => exact caught_kept httpStatus operation thrown fits.1 context
  | filtered host => exact filtered_kept httpStatus known operation thrown fits areErrors host

def redisDown (key : String) : Reason Exception := .plain (.error ("connection lost: ".toList ++ key.toList))

-- Two of the deletions of deleteAll fail.
def twoFailures : Operation Exception Unit :=
  SessionsService.deleteAllCalls [.error (redisDown "session:s1")] (.ok ()) [.error (redisDown "sess_user:s1")]

def twoFailuresOrder : List (List Nat) := [[0, 0], [1], [2, 0], [0], [2], []]

def codesOfNest (code : Text) : Option Nat :=
  if code = "BAD_REQUEST".toList then some 400
  else if code = "INTERNAL_SERVER_ERROR".toList then some 500
  else if code = "SERVICE_UNAVAILABLE".toList then some 503
  else none

-- deleteAccount logs one line, which names neither of them.
theorem two_failures_lost : ¬ ∀ (httpStatus : Text → Option Nat) (operation : Operation Exception Unit) (order : List (List Nat))
    (state : Running Exception Unit) (thrown : Reason Exception) (route : Route), KnowsCodes httpStatus →
    (∀ reason ∈ operation.reasons, reason.instanceOfError = true) → operation.launch.run order = some state →
    state.outcome = some (.error thrown) → Written operation.reasons (route.log httpStatus thrown) := by
  intro claim
  have written := claim codesOfNest twoFailures twoFailuresOrder _ _ (.caught "AuthService".toList) (by decide) (by decide) rfl rfl
  obtain ⟨entry, logged, same⟩ := written (redisDown "session:s1") (.head _)
  rw [List.mem_singleton.mp logged] at same
  exact absurd same (by decide)

-- The filter would log them, since each is alone in its call.
theorem failures_logged_iff_two : ∃ state thrown, twoFailures.launch.run twoFailuresOrder = some state ∧
    state.outcome = some (.error thrown) ∧
    Written twoFailures.reasons (Route.log codesOfNest (.filtered .graphql) thrown) := by
  refine ⟨_, _, rfl, rfl, ?_⟩
  refine (failures_logged_iff codesOfNest (by decide) twoFailures (by decide) twoFailuresOrder _ rfl _ rfl (.filtered .graphql)).mpr ?_
  exact .inr (by decide)

end Settling

end RateWise
