import Opifex.Vocabulary

/-!
# Writing to GitHub

A write goes through one switch and one retry loop. An attempt that timed out
or was answered with a server error is tried again, up to the retries left;
every other failure is final. What the loop cannot know is whether GitHub had
already done what the failed attempt asked for.
-/

namespace Opifex

/-- What came of one attempt of a write. The caller cannot tell `lost` from `missed`: it
saw no answer either time. -/
inductive WriteAttempt where
  /-- Done, and answered. -/
  | answered
  /-- Done, but no answer came: a timeout, or a server error. -/
  | lost
  /-- Not done: a timeout, a broken connection or a server error. -/
  | missed
  /-- Refused for good: the rate limit, the credential, or the request. -/
  | rejected
deriving DecidableEq, Repr

namespace WriteAttempt

/-- GitHub did what the attempt asked for. -/
def isDone : WriteAttempt → Bool
  | .answered | .lost => true
  | .missed | .rejected => false

/-- A transient failure is tried again. -/
def isTransient : WriteAttempt → Bool
  | .lost | .missed => true
  | .answered | .rejected => false

end WriteAttempt

/-- How a request ends for its caller, after the retries that the client makes by
itself. -/
inductive RequestEnd where
  | answered
  | failed
  /-- The process was gone before the request came to an end. -/
  | abandoned
deriving DecidableEq, Repr

/-- The attempts that are made when so many retries are left: the first that is
not transient is the last. The list is what is to come of each; where it is too
short the process is gone. -/
def attemptsMade (retries : ℕ) : List WriteAttempt → List WriteAttempt
  | [] => []
  | attempt :: attempts =>
    if attempt.isTransient then
      match retries with
      | 0 => [attempt]
      | left + 1 => attempt :: attemptsMade left attempts
    else [attempt]

/-- **`request`**: how the retry loop ends. -/
def request (retries : ℕ) : List WriteAttempt → RequestEnd
  | [] => .abandoned
  | attempt :: attempts =>
    if attempt.isTransient then
      match retries with
      | 0 => .failed
      | left + 1 => request left attempts
    else if attempt = .answered then .answered else .failed

/-- How often GitHub did what the request asks for. -/
def timesDone (retries : ℕ) (attempts : List WriteAttempt) : ℕ :=
  (attemptsMade retries attempts).countP (·.isDone)

/-- A request that was answered was done. -/
theorem timesDone_pos_of_answered {retries : ℕ} {attempts : List WriteAttempt}
    (h : request retries attempts = .answered) :
    0 < timesDone retries attempts := by
  unfold timesDone
  rw [List.countP_pos_iff]
  induction attempts generalizing retries with
  | nil =>
    unfold request at h
    cases h
  | cons attempt attempts ih =>
    unfold request at h
    unfold attemptsMade
    by_cases htransient : attempt.isTransient = true
    · rw [if_pos htransient] at h ⊢
      cases retries with
      | zero => cases h
      | succ retries =>
        obtain ⟨last, hlast, hdone⟩ := ih h
        exact ⟨last, List.mem_cons_of_mem _ hlast, hdone⟩
    · rw [if_neg htransient] at h ⊢
      by_cases hanswered : attempt = .answered
      · rw [hanswered]
        exact ⟨.answered, List.mem_cons_self, rfl⟩
      · rw [if_neg hanswered] at h
        cases h

/-- What a write reports: whether it was made, or was found to be unnecessary. -/
structure WriteResult where
  /-- False when writes are switched off and the write was only recorded. -/
  performed : Bool
  /-- What was asked for was already so. -/
  noop : Bool
deriving DecidableEq, Repr

end Opifex
