import Badging.Console.Trouble
import Badging.Facts.Snapshot
import Badging.Review.Pass
import Badging.Review.Progress
import Badging.Store.Ledger
import Badging.Time.Writing

/-!
# The demonstration

Three badges and three learners, reviewed twice. The first badge has a cutoff, which one learner
meets and another misses; the second asks for either of two activities; the third for an activity
that is gone. The second pass, an hour later, finds nothing to do.

All times are counted from the time of the demonstration, so it fails only at the beginning and
the end of the calendar.
-/

namespace Badging

namespace Demonstration

structure Times where
  now : Instant
  later : Instant
  cutoff : Instant
  beforeCutoff : Instant
  afterCutoff : Instant
  recently : Instant
  courseStart : Instant

def day : Int := 86400

def Times.ofNow? (now : Instant) : Option Times := do
  let cutoff ← now.addSeconds? (-10 * day)
  let beforeCutoff ← cutoff.addSeconds? (-day)
  let afterCutoff ← cutoff.addSeconds? day
  let recently ← now.addSeconds? (-3 * day)
  let courseStart ← now.addSeconds? (-60 * day)
  let later ← now.addSeconds? 3600
  return ⟨now, later, cutoff, beforeCutoff, afterCutoff, recently, courseStart⟩

def course : CourseId := ⟨2⟩

def learners : List LearnerId := [⟨21⟩, ⟨22⟩, ⟨23⟩]

def overall (method : Method) : Criterion.Record := ⟨"overall", method, none, .empty⟩

def activity (id : Int) (byDate : Option Instant) : Criterion.Record :=
  let number := Number.integerText id
  let params := (Register.empty).insert ("module_" ++ number) number
  ⟨"activity", .all, none,
    match byDate with
    | none => params
    | some t => params.insert ("bydate_" ++ number) (Number.integerText t.seconds)⟩

def definitions (times : Times) : List Definition :=
  [⟨"Orientation complete", .course course, .never, true,
      [overall .all, activity 7 (some times.cutoff)]⟩,
    ⟨"Either quiz", .site, .never, true, [overall .any, activity 3 none, activity 4 none]⟩,
    ⟨"Retired lab", .site, .never, true, [overall .all, activity 99 none]⟩]

def facts (times : Times) : Snapshot :=
  let s := (Snapshot.empty.withCourse course (some times.courseStart)).withActivity ⟨7⟩ course
  let s := (s.withActivity ⟨3⟩ course).withActivity ⟨4⟩ course
  let s := s.recordActivity ⟨⟨7⟩, ⟨21⟩, .complete, times.beforeCutoff⟩
  let s := s.recordActivity ⟨⟨7⟩, ⟨22⟩, .complete, times.afterCutoff⟩
  let s := s.recordActivity ⟨⟨4⟩, ⟨23⟩, .completePass, times.recently⟩
  let s := s.recordActivity ⟨⟨99⟩, ⟨23⟩, .complete, times.recently⟩
  learners.foldl (fun s l => (s.withSiteLearner l).enrol course l) s

def progressLine (p : Progress) : String :=
  let token := match p.token with
    | none => ""
    | some token => " token " ++ String.ofList (token.toList.take 12)
  "  learner " ++ p.learner.text ++ ": " ++ p.status ++ " (" ++
    Number.integerText p.criteriaMet ++ "/" ++ Number.integerText p.criteriaTotal ++
    " criteria met)" ++ token ++ "\n"

/-- A badge with the progress of the learners. -/
def badgeLines (b : Badge) : Run Ledger Trouble String := do
  let found ← (Run.perform (.badge b.id)).mapError .store
  let b := found.getD b
  let lines ← learners.mapM fun l => do
    let p ← (Progress.look b l).mapError .store
    return progressLine p
  return "\n" ++ b.name ++ " [" ++ b.id.text ++ "] (" ++ b.status.label ++ ")\n" ++
    String.join lines

def play (times : Times) : Run Ledger Trouble String := do
  let badges ← (Definition.createAll (definitions times)).mapError .definition
  let first ← (Review.pass times.now).mapError .review
  let second ← (Review.pass times.later).mapError .review
  let lines ← badges.mapM badgeLines
  return "Badge award review demo (" ++ times.now.date.text ++ ")\n" ++
    "Orientation cutoff: " ++ times.cutoff.date.text ++ "\n\n" ++
    "First pass: " ++ first.summary ++ "\n" ++
    "Second pass: " ++ second.summary ++ "\n" ++ String.join lines

end Demonstration

end Badging
