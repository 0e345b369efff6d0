/-
# `DdsRtps.Hdds.Qos` — QoS compatibility as the HDDS shape_main decides it

`check_writer_reader_compat` of srcRs/HDDS/src/main.rs, with what it calls.
The checks are made in the order of the source, and the first that fails names
the policy; a partition mismatch is a policy name too, and its callers treat
it as no match at all.

Of the QoS structures of the hdds crate only the fields the check reads are
here.  A deadline period is its length in nanoseconds.
-/
import DdsRtps.Hdds.FnmatchGlob
import DdsRtps.Lib.Utf8
import Mathlib.Algebra.Group.Int.Defs
import Mathlib.Algebra.Group.Nat.Defs

namespace DdsRtps.Hdds

open Utf8 (asBytes)

/-- `hdds::dds::qos::Reliability`. -/
inductive Reliability where
  | bestEffort
  | reliable
deriving DecidableEq, Repr

/-- `hdds::dds::qos::Durability`. -/
inductive Durability where
  | volatile
  | transientLocal
  | transient
  | persistent
deriving DecidableEq, Repr

/-- `hdds::qos::ownership::OwnershipKind`. -/
inductive OwnershipKind where
  | shared
  | exclusive
deriving DecidableEq, Repr

/-- `enum DataRepresentation`. -/
inductive DataRepresentation where
  | default
  | xcdr1
  | xcdr2
deriving DecidableEq, Repr

/-- The policies the check can name. -/
inductive Policy where
  | dataRepresentation
  | reliability
  | ownership
  | deadline
  | durability
  | partition
deriving DecidableEq, Repr

/-- The name of a policy, as the source spells it. -/
def Policy.name : Policy → String
  | .dataRepresentation => "DATA_REPRESENTATION"
  | .reliability => "RELIABILITY"
  | .ownership => "OWNERSHIP"
  | .deadline => "DEADLINE"
  | .durability => "DURABILITY"
  | .partition => "PARTITION"

/-- The part of `hdds::QoS` that the check reads. -/
structure QoS where
  dataRepresentation : List Nat
  reliability : Reliability
  ownershipKind : OwnershipKind
  deadlinePeriod : Nat
  durability : Durability
  partitionNames : List String
deriving DecidableEq, Repr

/-- `Duration::from_secs(u64::MAX)`, in nanoseconds. -/
def defaultDeadline : Nat := (2 ^ 64 - 1) * 1000000000

/-- `durability_rank`. -/
def durabilityRank : Durability → Nat
  | .volatile => 0
  | .transientLocal => 1
  | .transient => 2
  | .persistent => 3

/-- `infer_data_repr_from_qos`. -/
def inferDataReprFromQos (qos : QoS) : DataRepresentation :=
  if qos.dataRepresentation.contains 2 && !qos.dataRepresentation.contains 0 then .xcdr2
  else .xcdr1

/-- `w == r || fnmatch_glob(w, r) || fnmatch_glob(r, w)`. -/
def partitionsMeet (w r : String) : Bool :=
  w == r || fnmatchGlob (asBytes w) (asBytes r) == some true ||
    fnmatchGlob (asBytes r) (asBytes w) == some true

/-- `check_writer_reader_compat`; `none` is compatible. -/
def checkWriterReaderCompat (writerQos : QoS) (_writerRepr : DataRepresentation)
    (readerQos : QoS) (_readerRepr : DataRepresentation)
    (writerHasExplicitOwnership writerHasOwnershipStrength : Bool) : Option Policy :=
  -- both sides announce representations, and share none
  if !writerQos.dataRepresentation.isEmpty && !readerQos.dataRepresentation.isEmpty &&
      !writerQos.dataRepresentation.any (readerQos.dataRepresentation.contains ·) then
    some .dataRepresentation
  else if writerQos.reliability = .bestEffort ∧ readerQos.reliability = .reliable then
    some .reliability
  else
    let inferredWriterOwnership :=
      if writerHasExplicitOwnership then writerQos.ownershipKind
      else if writerHasOwnershipStrength then .exclusive
      else .shared
    if inferredWriterOwnership ≠ readerQos.ownershipKind then some .ownership
    else if writerQos.deadlinePeriod ≠ defaultDeadline ∧ readerQos.deadlinePeriod ≠ defaultDeadline ∧
        writerQos.deadlinePeriod > readerQos.deadlinePeriod then
      some .deadline
    else if durabilityRank writerQos.durability < durabilityRank readerQos.durability then
      some .durability
    else
      let wDefault := writerQos.partitionNames.isEmpty
      let rDefault := readerQos.partitionNames.isEmpty
      if wDefault && rDefault then none
      else if wDefault || rDefault then some .partition
      else if writerQos.partitionNames.any
          (fun w => readerQos.partitionNames.any (fun r => partitionsMeet w r)) then none
      else some .partition

end DdsRtps.Hdds
