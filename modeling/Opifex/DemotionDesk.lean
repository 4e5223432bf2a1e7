import Opifex.GrantDesk
import Opifex.PromotionLadder

/-!
# The demotion desk

A demotion writes the rung first, then reads the active grants of the class and
suspends them one after the other; what fails on the way is logged and passed
over. An evaluation demotes in the middle of going over the classes, a person
demotes one. Grants are created, renewed, charged and ended meanwhile, by the
statements of their own desk.

Every statement is a turn of its own, and a call can be cut off between any
two.
-/

namespace Opifex

/-- The statement a demotion suspends a grant with says why. -/
def demotionDetail (actionClass detail : String) : String :=
  "Action class \"" ++ actionClass ++
    "\" was demoted off the promotion ladder (#99). " ++ detail

/-- A demotion whose rung was written. It is over when its call has gone through the
grants of the class. -/
structure Demotion where
  actionClass : String
  /-- The grants of the class there were. -/
  existing : List ℕ
  /-- Once it is over, the first key that a later grant has. -/
  ended : Option ℕ := none
deriving DecidableEq

/-- What is on record of a demotion that is over: it is so once. -/
def Demotion.concluded (demotion : Demotion) (next : ℕ) : Demotion :=
  { demotion with ended := demotion.ended.or next }

/-- What an evaluation knows while it goes over the classes: the states as they were
read at its start, and what it has to write down of each. -/
structure EvaluationPass where
  states : PromotionTable
  paused : Bool
  now : Instant
  /-- The demotions that were over when it began. -/
  since : List ℕ
  /-- None of its statements failed. -/
  clean : Bool

/-- A demotion on its way: the class, why, and what its call goes on with. The grants of
the class are suspended one after the other. -/
structure Disarming where
  demotion : ℕ
  actionClass : String
  detail : String
  now : Instant
  resumes : Option (EvaluationPass × List ClassEvidence)

/-- What a call does next. The evaluation reads the rungs and goes over the classes; a
demotion by hand reads and writes one; both go on to suspend the grants of a class that
was demoted. -/
inductive LadderCall where
  | readingStates (evidence : GatheredEvidence) (paused : Bool) (now : Instant)
    (since : List ℕ)
  | writing (pass : EvaluationPass) (item : ClassEvidence)
    (change : LadderChange) (left : List ClassEvidence)
  | readingRow (actionClass : String) (actorUserId : ℕ) (note : Option String)
    (evidence : GatheredEvidence) (now : Instant)
  | writingByHand (existing : PromotionState) (item : ClassEvidence)
    (change : LadderChange) (actorUserId : ℕ) (now : Instant)
  | listing (job : Disarming)
  | suspending (job : Disarming) (grantId : ℕ) (left : List ℕ)
  /-- An evaluation that came to its end. -/
  | completed (pass : EvaluationPass)
  | done

/-- The classes that are left, up to the next one that changes. -/
def EvaluationPass.advance (pass : EvaluationPass) : List ClassEvidence → LadderCall
  | [] => .completed pass
  | item :: left =>
    match settle (pass.states item.actionClass) pass.paused pass.now item with
    | none => pass.advance left
    | some change => .writing pass item change left

/-- What a call goes on with after a demotion. -/
def Disarming.next (job : Disarming) : LadderCall :=
  match job.resumes with
  | none => .done
  | some (pass, left) => pass.advance left

/-- A failure is on record against the evaluation it happened in. -/
def Disarming.failed (job : Disarming) : Disarming :=
  { job with
    resumes := job.resumes.map fun (pass, left) =>
      ({ pass with clean := false }, left) }

/-- The ladder and the grants, with the calls under way. The demotions are ghost: they
record what was demoted, for the statement. -/
structure DemotionDesk where
  grantDesk : GrantDesk
  states : PromotionTable
  calls : List LadderCall := []
  /-- The demotions so far. -/
  demotions : List Demotion := []

/-- What happens next: a call of the grants, an evaluation or a demotion starts, or one
that started executes its next statement. -/
inductive DemotionTurn where
  | grant (turn : GrantTurn)
  | evaluate (evidence : GatheredEvidence) (paused : Bool)
  | demoteManually (actionClass : String) (actorUserId : ℕ)
    (note : Option String) (evidence : GatheredEvidence)
  | resume (call : ℕ) (error : Option String)
  /-- The process goes down in the middle of a call. -/
  | cutOff (call : ℕ)

namespace DemotionDesk

/-- The demotion with a number is over. -/
def conclude (desk : DemotionDesk) (number : ℕ) : DemotionDesk :=
  { desk with
    demotions :=
      desk.demotions.modify number (·.concluded desk.grantDesk.grants.next) }

/-- Suspend what is left, or come to the end. -/
def disarm (desk : DemotionDesk) (job : Disarming) :
    List ℕ → DemotionDesk × LadderCall
  | [] => (desk.conclude job.demotion, job.next)
  | grantId :: left => (desk, .suspending job grantId left)

/-- The demotions that are over. -/
def settledDemotions (desk : DemotionDesk) : List ℕ :=
  (List.range desk.demotions.length).filter fun demotion =>
    (desk.demotions[demotion]?.bind (·.ended)).isSome

/-- A rung is written, and a demotion begins where it is taken off. -/
def write (desk : DemotionDesk) (item : ClassEvidence)
    (existing : Option PromotionState) (change : LadderChange) (now : Instant)
    (human : Option (ℕ × Instant)) : DemotionDesk :=
  { desk with
    states :=
      Function.update desk.states item.actionClass
        (some (persistRow (desk.states item.actionClass) existing item change
          now human))
    demotions :=
      desk.demotions ++
        if change.reason.any (·.isDemotion) then
          [{ actionClass := item.actionClass
             existing :=
              (desk.grantDesk.grants.rows.filter
                (·.actionClass == item.actionClass)).map (·.id) }]
        else [] }

/-- What follows the write of a rung. -/
def follow (desk : DemotionDesk) (item : ClassEvidence) (change : LadderChange)
    (now : Instant) (resumes : Option (EvaluationPass × List ClassEvidence)) :
    LadderCall :=
  let job : Disarming :=
    { demotion := desk.demotions.length
      actionClass := item.actionClass
      detail := change.detail
      now := now
      resumes := resumes }
  if change.reason.any (·.isDemotion) then .listing job
  else job.next

/-- **The next statement of a call.** -/
def execute (desk : DemotionDesk) (error : Option String) :
    LadderCall → DemotionDesk × LadderCall
  | .readingStates evidence paused now since =>
    match error with
    | some _ => (desk, .done)
    | none =>
      (desk, EvaluationPass.advance ⟨desk.states, paused, now, since, true⟩
        evidence.items)
  | .writing pass item change left =>
    match error with
    | some _ => (desk, .done)
    | none =>
      (desk.write item (pass.states item.actionClass) change pass.now none,
        desk.follow item change pass.now (some (pass, left)))
  | .readingRow actionClass actorUserId note evidence now =>
    match error, desk.states actionClass with
    | none, some existing =>
      if existing.rung = .promoted then
        let item := evidence.of actionClass
        (desk, .writingByHand existing item
          ⟨rungFor false item, some .demotedManually,
            manualDemotionDetail item actorUserId note now⟩ actorUserId now)
      else (desk, .done)
    | _, _ => (desk, .done)
  | .writingByHand existing item change actorUserId now =>
    match error with
    | some _ => (desk, .done)
    | none =>
      (desk.write item existing change now
          (some (actorUserId, now + manualHoldMs)),
        desk.follow item change now none)
  | .listing job =>
    match error with
    | some _ => desk.disarm job.failed []
    | none =>
      desk.disarm job
        ((desk.grantDesk.grants.rows.filter fun row =>
          row.actionClass == job.actionClass && row.status == .active).map
            (·.id))
  | .suspending job grantId left =>
    match error with
    | some _ => desk.disarm job.failed left
    | none =>
      { desk with
        grantDesk :=
          desk.grantDesk.update grantId
            (·.suspend .classDemoted
              (demotionDetail job.actionClass job.detail) job.now)
            fun _ => TrustGrantRow.id_finish _ _ _ _ _ }.disarm job left
  | .completed pass => (desk, .completed pass)
  | .done => (desk, .done)

/-- What is over when a call is cut off. -/
def abandon (desk : DemotionDesk) : LadderCall → DemotionDesk
  | .listing job => desk.conclude job.demotion
  | .suspending job _ _ => desk.conclude job.demotion
  | _ => desk

/-- One turn. -/
def step (desk : DemotionDesk) : DemotionTurn → DemotionDesk
  | .grant turn => { desk with grantDesk := desk.grantDesk.step turn }
  | .evaluate evidence paused =>
    { desk with
      calls := desk.calls ++
        [.readingStates evidence paused desk.grantDesk.clock
          desk.settledDemotions] }
  | .demoteManually actionClass actorUserId note evidence =>
    { desk with
      calls := desk.calls ++
        [.readingRow actionClass actorUserId note evidence
          desk.grantDesk.clock] }
  | .resume id error =>
    match desk.calls[id]? with
    | none => desk
    | some call =>
      let executed := desk.execute error call
      { executed.1 with calls := desk.calls.set id executed.2 }
  | .cutOff id =>
    match desk.calls[id]? with
    | none => desk
    | some call => { desk.abandon call with calls := desk.calls.set id .done }

/-- A desk where no call is under way. -/
def opened (clock : Instant) (grants : Table TrustGrantRow)
    (states : PromotionTable) : DemotionDesk where
  grantDesk := { clock := clock, grants := grants }
  states := states

end DemotionDesk

end Opifex
