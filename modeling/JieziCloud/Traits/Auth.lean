import JieziCloud.Error
import JieziCloud.Types.Action

open code_words jiezi_cloud_core.error jiezi_cloud_core.types

namespace jiezi_cloud_core.traits.auth

/-- What one user wants to do to one resource. -/
structure Attempt where
  user_id : UserId
  action : Action
  resource : ResourceRef
  deriving DecidableEq

/-- The service as the default method uses it: what a check answers may depend
    on whatever state stands behind the service, and may change it. -/
class AuthService (State : Type) where
  check_permission : State → UserId → Action → ResourceRef → AppResult Bool × State

export AuthService (check_permission)

/-- `user {user_id} is not authorised for action {action:?} on {resource:?}` -/
def denial (attempt : Attempt) : String :=
  "user " ++ attempt.user_id.to_string ++ " is not authorised for action " ++
    attempt.action.debug ++ " on " ++ attempt.resource.debug

section runs

variable {State : Type} [AuthService State]

def assert_permission (state : State) (user_id : UserId) (action : Action) (resource : ResourceRef) :
    AppResult Unit × State :=
  match check_permission state user_id action resource with
  | (.ok true, state) => (.ok (), state)
  | (.ok false, state) => (.error (.Forbidden (denial ⟨user_id, action, resource⟩)), state)
  | (.error e, state) => (.error e, state)

/-- Assertions one after the other, up to the first error. -/
def assert_each : State → List Attempt → AppResult Unit × State
  | state, [] => (.ok (), state)
  | state, ⟨user_id, action, resource⟩ :: attempts =>
    match assert_permission state user_id action resource with
    | (.ok (), state) => assert_each state attempts
    | refused => refused

/-- Every attempt is checked in turn, and permitted. -/
inductive Permitted : State → List Attempt → State → Prop where
  | nil (state : State) : Permitted state [] state
  | cons {state next last : State} {attempt : Attempt} {attempts : List Attempt}
      (hcheck : check_permission state attempt.user_id attempt.action attempt.resource =
        (.ok true, next)) (hrest : Permitted next attempts last) :
      Permitted state (attempt :: attempts) last

/-- The attempt is checked and not permitted, with the error that results. -/
def RefusedWith (state : State) (attempt : Attempt) (e : AppError) (last : State) : Prop :=
  check_permission state attempt.user_id attempt.action attempt.resource = (.error e, last) ∨
    (check_permission state attempt.user_id attempt.action attempt.resource = (.ok false, last) ∧
      e = .Forbidden (denial attempt))

/-- Only a positive answer lets an attempt pass, and the service is left in the
    state after the answer. -/
theorem assert_permission_eq_ok_iff {state last : State} {attempt : Attempt} :
    assert_permission state attempt.user_id attempt.action attempt.resource = (.ok (), last) ↔
      check_permission state attempt.user_id attempt.action attempt.resource = (.ok true, last) := by
  unfold assert_permission
  obtain ⟨outcome, next⟩ := check_permission state attempt.user_id attempt.action attempt.resource
  cases outcome with
  | error e => simp
  | ok permitted => cases permitted <;> simp

/-- An attempt fails with the error of the check itself, or as forbidden when the
    answer was negative. -/
theorem assert_permission_eq_error_iff {state last : State} {attempt : Attempt} {e : AppError} :
    assert_permission state attempt.user_id attempt.action attempt.resource = (.error e, last) ↔
      RefusedWith state attempt e last := by
  unfold assert_permission RefusedWith
  obtain ⟨outcome, next⟩ := check_permission state attempt.user_id attempt.action attempt.resource
  cases outcome with
  | error e' => simp
  | ok permitted => cases permitted <;> simp [eq_comm, and_comm]

/-- Once an attempt has passed, the later ones are made in the state that it
    leaves. -/
theorem assert_each_of_permitted {state next : State} {attempt : Attempt} (attempts : List Attempt)
    (h : assert_permission state attempt.user_id attempt.action attempt.resource = (.ok (), next)) :
    assert_each state (attempt :: attempts) = assert_each next attempts := by
  simp only [assert_each, h]

/-- After the first failure nothing is checked any more. -/
theorem assert_each_of_refused {state next : State} {attempt : Attempt} {e : AppError}
    (attempts : List Attempt)
    (h : assert_permission state attempt.user_id attempt.action attempt.resource = (.error e, next)) :
    assert_each state (attempt :: attempts) = (.error e, next) := by
  simp only [assert_each, h]

/-- All attempts pass exactly when each is permitted in the state that the earlier
    checks have left. The induction is on the attempts. -/
theorem assert_each_eq_ok_iff {state last : State} {attempts : List Attempt} :
    assert_each state attempts = (.ok (), last) ↔ Permitted state attempts last := by
  induction attempts generalizing state with
  | nil =>
    rw [assert_each, Prod.mk.injEq, eq_self, true_and]
    constructor
    · rintro rfl
      exact .nil state
    · rintro ⟨⟩
      rfl
  | cons attempt attempts ih =>
    rcases hassert : assert_permission state attempt.user_id attempt.action attempt.resource with
      ⟨outcome, next⟩
    cases outcome with
    | ok =>
      rw [assert_each_of_permitted attempts hassert, ih]
      rw [assert_permission_eq_ok_iff] at hassert
      constructor
      · intro hrest
        exact .cons hassert hrest
      · rintro (_ | ⟨hcheck, hrest⟩)
        rw [hassert] at hcheck
        cases hcheck
        exact hrest
    | error e =>
      rw [assert_each_of_refused attempts hassert]
      constructor
      · intro h
        cases h
      · rintro (_ | ⟨hcheck, _⟩)
        rw [assert_permission_eq_ok_iff.mpr hcheck] at hassert
        cases hassert

/-- Assertions fail at the first attempt that is not permitted, and the later
    ones are not even checked. -/
theorem assert_each_eq_error_iff {state last : State} {attempts : List Attempt} {e : AppError} :
    assert_each state attempts = (.error e, last) ↔ ∃ before attempt after mid,
      attempts = before ++ attempt :: after ∧ Permitted state before mid ∧
        RefusedWith mid attempt e last := by
  induction attempts generalizing state with
  | nil => simp [assert_each]
  | cons attempt attempts ih =>
    constructor
    · intro h
      rcases hassert : assert_permission state attempt.user_id attempt.action attempt.resource with
        ⟨outcome, next⟩
      cases outcome with
      | ok =>
        rw [assert_each_of_permitted attempts hassert, ih] at h
        obtain ⟨before, refused, after, mid, rfl, hbefore, hrefused⟩ := h
        exact ⟨attempt :: before, refused, after, mid, rfl,
          .cons (assert_permission_eq_ok_iff.mp hassert) hbefore, hrefused⟩
      | error e' =>
        rw [assert_each_of_refused attempts hassert] at h
        cases h
        exact ⟨[], attempt, attempts, state, rfl, .nil state, assert_permission_eq_error_iff.mp hassert⟩
    · rintro ⟨before, refused, after, mid, heq, hbefore, hrefused⟩
      cases hbefore with
      | nil =>
        cases heq
        exact assert_each_of_refused attempts (assert_permission_eq_error_iff.mpr hrefused)
      | cons hcheck hrest =>
        cases heq
        rw [assert_each_of_permitted _ (assert_permission_eq_ok_iff.mpr hcheck), ih]
        exact ⟨_, refused, after, mid, rfl, hrest, hrefused⟩

end runs

/-- A denial tells who wanted to do what to which resource: the three parts are
    printed by prefix codes, with fixed words between them. -/
theorem denial_injective {attempt other : Attempt} (h : denial attempt = denial other) :
    attempt = other := by
  have huser : PrefixFree fun user_id : UserId => user_id.to_string.toList :=
    newtype_uuid_id.to_string_prefixFree
  have hcode := (huser.between "user ".toList " is not authorised for action ".toList).prod
    ((Action.debug_prefixFree.between [] " on ".toList).prod ResourceRef.debug_prefixFree)
  have htriple : (attempt.user_id, attempt.action, attempt.resource) =
      (other.user_id, other.action, other.resource) := by
    apply hcode.injective
    rw [← String.toList_inj] at h
    simpa only [denial, String.toList_append, List.append_assoc, List.nil_append] using h
  cases attempt
  cases other
  simpa using htriple

/-- Different errors are displayed differently, and a refusal is displayed so
    that the user, the action and the resource can all be told from it. -/
theorem displays_identify :
    (∀ e other : AppError, e.to_string = other.to_string ↔ e = other) ∧
      ∀ attempt other : Attempt, (AppError.Forbidden (denial attempt)).to_string =
        (AppError.Forbidden (denial other)).to_string ↔ attempt = other := by
  have hdisplay : ∀ e other : AppError, e.to_string = other.to_string ↔ e = other := by
    intro e other
    exact ⟨AppError.to_string_injective, congrArg AppError.to_string⟩
  refine ⟨hdisplay, ?_⟩
  intro attempt other
  rw [hdisplay, AppError.Forbidden.injEq]
  exact ⟨denial_injective, congrArg denial⟩

/-- What a run of assertions comes to, whatever the service does: it succeeds
    when every attempt is permitted in the state that the earlier checks leave,
    and it otherwise fails with the first refusal, in the state of that check. -/
theorem assert_each_spec {State : Type} [AuthService State] (state : State) (attempts : List Attempt) :
    (∀ last, assert_each state attempts = (.ok (), last) ↔ Permitted state attempts last) ∧
      ∀ e last, assert_each state attempts = (.error e, last) ↔ ∃ before attempt after mid,
        attempts = before ++ attempt :: after ∧ Permitted state before mid ∧
          RefusedWith mid attempt e last :=
  ⟨fun _ => assert_each_eq_ok_iff, fun _ _ => assert_each_eq_error_iff⟩

end jiezi_cloud_core.traits.auth
