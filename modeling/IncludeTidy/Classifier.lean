import IncludeTidy.Report.Entry
import IncludeTidy.Ruleset.Basic
import IncludeTidy.Text.Lines

namespace IncludeTidy

-- A report is handed over once, whether it is refused or not, and the receiver may have changed in
-- either case.
class Receiver (σ : Type) (ε : outParam Type) where
  accept : σ → FileReport → σ × Option ε

structure Collected where
  reports : List FileReport
deriving DecidableEq, Repr

instance : Receiver Collected Empty where
  accept collected report := (⟨collected.reports ++ [report]⟩, none)

inductive ClassifyError (ε : Type) where
  | unrecognized (number : Nat) (line : String)
  | read (fault : Text.ReadFault)
  | deliver (refusal : ε)
deriving DecidableEq, Repr

namespace ClassifyError

def isFormatDrift : ClassifyError ε → Bool
  | unrecognized _ _ => true
  | read _ | deliver _ => false

def message (describe : ε → String) : ClassifyError ε → String
  | unrecognized number line =>
    s!"line {number}: unrecognized report line outside any section: " ++ line
  | read fault => "read report: " ++ fault.message
  | deliver refusal => "deliver report: " ++ describe refusal

end ClassifyError

structure Tally where
  linesRead : Nat
  noise : Nat
  unrecognized : Nat
  falsePositives : Nat
  files : Nat
deriving DecidableEq, Repr

def Tally.zero : Tally := ⟨0, 0, 0, 0, 0⟩

-- A strict classifier fails on content outside any section, a tolerant one drops it.
structure Classifier where
  rules : Ruleset
  strict : Bool

-- The second part tells whether the line was dropped as a known false positive. Only additions are
-- screened.
def FileReport.absorb (rules : Ruleset) (report : FileReport) (line : String) :
    Section → FileReport × Bool
  | .additions =>
    let entry := Entry.ofLine line
    match rules.screen report.file entry with
    | .keep => ({ report with additions := report.additions.insertEntry entry }, false)
    | .forwardDecl => ({ report with needsUmbrella := true }, false)
    | .falsePositive => (report, true)
  | .removals =>
    ({ report with
      removals := report.removals.insertEntry (Entry.ofLine line).withoutRemovalMark }, false)
  | .fullList =>
    ({ report with fullList := report.fullList.insertEntry (Entry.ofLine line) }, false)

namespace Classifier

structure State (σ : Type) where
  report? : Option FileReport
  inside? : Option Section
  tally : Tally
  receiver : σ
deriving DecidableEq, Repr

def start (receiver : σ) : State σ := ⟨none, none, .zero, receiver⟩

variable [Receiver σ ε]

def close (rules : Ruleset) (s : State σ) : State σ × Option (ClassifyError ε) :=
  match s.report? with
  | none => ({ s with inside? := none }, none)
  | some report =>
    let (receiver, refusal?) := Receiver.accept s.receiver (report.consolidate rules.umbrella).1
    (⟨none, none, { s.tally with files := s.tally.files + 1 }, receiver⟩, refusal?.map .deliver)

def openSection (rules : Ruleset) (s : State σ) (header : Header) :
    State σ × Option (ClassifyError ε) :=
  if s.report?.map FileReport.file = some header.file then
    ({ s with inside? := Section.after? s.inside? header.signal }, none)
  else match close rules s with
    | (closed, some error) => (closed, some error)
    | (closed, none) =>
      ({ closed with
        report? := some (.opened header.file)
        inside? := Section.after? closed.inside? header.signal }, none)

def absorb (c : Classifier) (s : State σ) (line : String) : State σ × Option (ClassifyError ε) :=
  match s.report?, s.inside? with
  | some report, some section_ =>
    let (report, dropped) := report.absorb c.rules line section_
    ({ s with
      report? := some report
      tally := { s.tally with falsePositives := s.tally.falsePositives + dropped.toNat } }, none)
  | _, _ =>
    if c.strict then (s, some (.unrecognized s.tally.linesRead line))
    else ({ s with tally := { s.tally with unrecognized := s.tally.unrecognized + 1 } }, none)

-- A line that fails leaves a state from which the next can be fed, which is for the caller to do:
-- a run stops at the first failure.
def feed (c : Classifier) (s : State σ) (raw : String) : State σ × Option (ClassifyError ε) :=
  let line := Text.trim raw
  let s := { s with tally := { s.tally with linesRead := s.tally.linesRead + 1 } }
  match c.rules.layout.kind line with
  | .noise => ({ s with tally := { s.tally with noise := s.tally.noise + 1 } }, none)
  | .boundary => close c.rules s
  | .header header => openSection c.rules s header
  | .content => absorb c s line

def feedAll (c : Classifier) (s : State σ) : List Text.LineRead → State σ × Option (ClassifyError ε)
  | [] => (s, none)
  | .error fault :: _ => (s, some (.read fault))
  | .ok line :: rest =>
    match c.feed s line with
    | (fed, none) => feedAll c fed rest
    | (fed, some error) => (fed, some error)

@[ext]
structure Ending (σ ε : Type) where
  receiver : σ
  result : Except (ClassifyError ε) Tally

def finish (c : Classifier) (s : State σ) : Ending σ ε :=
  match close c.rules s with
  | (closed, none) => ⟨closed.receiver, .ok closed.tally⟩
  | (closed, some error) => ⟨closed.receiver, .error error⟩

def processReads (c : Classifier) (receiver : σ) (reads : List Text.LineRead) : Ending σ ε :=
  match c.feedAll (start receiver) reads with
  | (s, none) => c.finish s
  | (s, some error) => ⟨s.receiver, .error error⟩

def processLines (c : Classifier) (receiver : σ) (lines : List String) : Ending σ ε :=
  c.processReads receiver (lines.map .ok)

def processSource (c : Classifier) (receiver : σ) (source : Text.ByteSource) : Ending σ ε :=
  c.processReads receiver source.reads

end Classifier

end IncludeTidy
