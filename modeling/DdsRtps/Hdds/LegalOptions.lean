/-
# `DdsRtps.Hdds.LegalOptions` — the HDDS command line against the C++ one

srcRs/HDDS/src/main.rs says of its options that they mirror the C++ ones exactly,
and of its validation that it matches `validate()` of srcCxx/shape_main.cxx.  The
cross-option rules do (`validated_of_parseArgs`), but `parse()` there also checks the
range of each number.  Here a range is kept where the type of the field keeps it;
ten options can be given any number of their type.
-/
import DdsRtps.Hdds.ShapeOptions

namespace DdsRtps.Hdds

/-! ## What the C++ shape_main enforces -/

/-- The least number that `parse()` of shape_main.cxx lets pass in the case of the
option. -/
def NumOpt.cxxLeast : NumOpt → Int
  | .domainId | .historyDepth | .shapesize => 0
  | .ownershipStrength => -1
  | .deadlineInterval | .timeFilter | .lifespan => 0
  | .writePeriod | .readPeriod | .periodicAnnouncement => 0
  | .numIterations | .numInstances | .numTopics => 1
  | .additionalPayloadSize | .sizeModulo => 1
  | .coherentSampleCount => 2
  | .datafragSize => 0

/-- The range of the option there; one option has a greatest number too. -/
def NumOpt.InCxxRange (k : NumOpt) (v : Int) : Prop :=
  k.cxxLeast ≤ v ∧ (k = .datafragSize → v ≤ 65535)

instance (k : NumOpt) (v : Int) : Decidable (k.InCxxRange v) :=
  inferInstanceAs (Decidable (_ ∧ _))

/-- The rules between options, of `validate()` and of the case of
`--final-instance-state` in `parse()`. -/
structure Validated (opts : ShapeOptions) : Prop where
  topic : opts.topicName ≠ none
  publish_or_subscribe : opts.publish = true ∨ opts.subscribe = true
  not_both : ¬(opts.publish = true ∧ opts.subscribe = true)
  color : opts.publish = true → opts.color ≠ none
  cft : ¬(opts.subscribe = true ∧ opts.color ≠ none ∧ opts.cftExpression ≠ none)
  final : ¬(opts.unregister = true ∧ opts.dispose = true)

/-- The options are legal ones: each number that is given is in its C++ range, and
the rules between options hold. -/
def Legal (args : List String) (opts : ShapeOptions) : Prop :=
  (∀ k, lastGiven k args ≠ none → k.InCxxRange (k.get opts)) ∧ Validated opts

/-! ## The rules between options -/

theorem defaultColor_color {opts : ShapeOptions} (h : opts.publish = true) :
    (defaultColor opts).color ≠ none := by
  unfold defaultColor
  cases hcolor : opts.color <;> simp [h, hcolor]

@[simp] theorem defaultColor_publish (opts : ShapeOptions) :
    (defaultColor opts).publish = opts.publish := by
  unfold defaultColor
  split <;> rfl

@[simp] theorem defaultColor_subscribe (opts : ShapeOptions) :
    (defaultColor opts).subscribe = opts.subscribe := by
  unfold defaultColor
  split <;> rfl

@[simp] theorem defaultColor_topicName (opts : ShapeOptions) :
    (defaultColor opts).topicName = opts.topicName := by
  unfold defaultColor
  split <;> rfl

theorem validated_of_validate {opts opts' : ShapeOptions} (h : validate opts = .accepted opts') :
    Validated opts' := by
  obtain ⟨rfl, htopic, hside, hfilter, hfinal⟩ := validate_eq_accepted h
  exact {
    topic := by simpa using htopic
    publish_or_subscribe := by cases hs : opts.subscribe <;> simp [hside, hs]
    not_both := by cases hs : opts.subscribe <;> simp [hside, hs]
    color := fun hpublish => defaultColor_color (by simpa using hpublish)
    cft := by simpa [Option.isSome_iff_ne_none] using hfilter
    final := by simpa using hfinal }

theorem validated_of_parseArgs {args : List String} {opts opts' : ShapeOptions}
    (h : parseArgs args opts = .accepted opts') : Validated opts' := by
  fun_induction parseArgs args opts with
  | case1 => exact validated_of_validate h
  | case3 _ _ _ _ _ _ ih => exact ih h
  | case7 _ _ _ _ _ _ _ _ _ _ ih => exact ih h
  | case2 | case4 | case5 | case6 => cases h

/-! ## The ranges -/

/-- The options of which the type of the field does not keep the C++ range. -/
def unchecked : List NumOpt :=
  [.historyDepth, .ownershipStrength, .shapesize, .numIterations, .numInstances, .numTopics,
    .coherentSampleCount, .additionalPayloadSize, .datafragSize, .sizeModulo]

/-- The other options are `u32`, and any such number is in their range. -/
theorem inCxxRange_of_inType {k : NumOpt} {v : Int} (hk : k ∉ unchecked) (hv : k.InType v) :
    k.InCxxRange v := by
  cases k <;> simp [unchecked] at hk <;> exact ⟨hv.1, nofun⟩

/-- An accepted command line is a legal one if and only if the last number that it
gives each of the ten unchecked options is in the option's C++ range. -/
theorem legal_iff (args : List String) (opts : ShapeOptions) (h : parse args = .accepted opts) :
    Legal args opts ↔
      ∀ k ∈ unchecked, ∀ v, lastGiven k args = some v → k.InCxxRange v := by
  have hget : ∀ k v, lastGiven k args = some v → k.get opts = v := fun k v hlast => by
    rw [get_parse k h, hlast]
    rfl
  constructor
  · intro hlegal k _ v hlast
    have hrange := hlegal.1 k (by simp [hlast])
    rwa [hget k v hlast] at hrange
  · intro hranges
    refine ⟨fun k hgiven => ?_, validated_of_parseArgs h⟩
    obtain ⟨v, hlast⟩ := Option.ne_none_iff_exists'.1 hgiven
    rw [hget k v hlast]
    by_cases hk : k ∈ unchecked
    · exact hranges k hk v hlast
    · exact inCxxRange_of_inType hk (inType_of_lastGiven hlast)

/-- A publisher with growing sizes. -/
def growing : List String := ["shape_main", "-P", "-t", "Square", "-z", "0", "--size-modulo", "50"]

/-- Its options: `-z 0` and the modulo are the numbers given. -/
def growingOptions : ShapeOptions :=
  { ShapeOptions.default_ with
    publish := true
    topicName := some "Square"
    color := some "BLUE"
    shapesize := 0
    sizeModulo := 50 }

theorem legal_growing : Legal growing growingOptions := by
  refine (legal_iff growing growingOptions (by decide +kernel)).2 fun k hk v hlast => ?_
  have hnumbers : numbersGiven (growing.drop 1) = [(.shapesize, 0), (.sizeModulo, 50)] := by
    decide +kernel
  rw [lastGiven, hnumbers] at hlast
  cases k <;> simp [lastOf] at hlast <;> subst hlast <;> decide

/-- A publisher with a negative size. -/
def negativeSize : List String := ["shape_main", "-P", "-t", "Square", "-z", "-5"]

/-- `-z -5` is accepted, and the size written is -5. -/
theorem not_accepted_legal :
    ¬ ∀ args opts, parse args = .accepted opts → Legal args opts := by
  intro hlegal
  have hparse : parse negativeSize = .accepted { growingOptions with
      shapesize := -5
      sizeModulo := 0 } := by decide +kernel
  have hrange := (hlegal negativeSize _ hparse).1 .shapesize (by decide +kernel)
  exact absurd hrange (by decide)

end DdsRtps.Hdds
