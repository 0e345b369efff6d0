/-
# `DdsRtps.Harness.ReturnCode` — the verdicts of the harness

`class ReturnCode` of rtps_test_utilities.py.
-/
import Mathlib.Tactic.TypeStar

namespace DdsRtps.Harness

/-- `class ReturnCode`. -/
inductive ReturnCode where
  | ok
  | topicNotCreated
  | readerNotCreated
  | writerNotCreated
  | filterNotCreated
  | incompatibleQos
  | readerNotMatched
  | dataNotReceived
  | dataNotSent
  | dataNotCorrect
  | receivingFromOne
  | receivingFromBoth
  | deadlineMissed
  | orderedAccessInstance
  | orderedAccessTopic
  | pubUnsupportedFeature
  | subUnsupportedFeature
deriving DecidableEq, Repr

/-- `ReturnCode.name`. -/
def ReturnCode.name : ReturnCode → String
  | .ok => "OK"
  | .topicNotCreated => "TOPIC_NOT_CREATED"
  | .readerNotCreated => "READER_NOT_CREATED"
  | .writerNotCreated => "WRITER_NOT_CREATED"
  | .filterNotCreated => "FILTER_NOT_CREATED"
  | .incompatibleQos => "INCOMPATIBLE_QOS"
  | .readerNotMatched => "READER_NOT_MATCHED"
  | .dataNotReceived => "DATA_NOT_RECEIVED"
  | .dataNotSent => "DATA_NOT_SENT"
  | .dataNotCorrect => "DATA_NOT_CORRECT"
  | .receivingFromOne => "RECEIVING_FROM_ONE"
  | .receivingFromBoth => "RECEIVING_FROM_BOTH"
  | .deadlineMissed => "DEADLINE_MISSED"
  | .orderedAccessInstance => "ORDERED_ACCESS_INSTANCE"
  | .orderedAccessTopic => "ORDERED_ACCESS_TOPIC"
  | .pubUnsupportedFeature => "PUB_UNSUPPORTED_FEATURE"
  | .subUnsupportedFeature => "SUB_UNSUPPORTED_FEATURE"

end DdsRtps.Harness
