/-
# `DdsRtps.ShapeMain.ColorFilter` — the readers that a colour filters

With `-c` a subscriber creates its readers on content-filtered topics.  The end
of `init_subscriber` in C++, for each product, and `runSubscriber` in Zig, as
far as they create them.  What the middleware answers is an input: it may create
a filtered topic, or a reader, or not.

The parameter of a filter is written to a buffer of 64 bytes for Connext and
InterCOM, which cuts it, and the expression of the Zig subscriber to one of 65,
which it may not fit in; then, and when the topic is not created, there is no
filter.  In Zig there is one for the first topic alone.

A filter compares with a colour if its operand is that colour (`comparison`):
between quotes, where no quote and no newline ends it before, or for CoreDX and
OpenDDS the parameter itself.  What `MATCH` makes of a pattern is Connext's own.
-/
import DdsRtps.Lib.Quoted
import DdsRtps.ShapeMain.TopicBounds

namespace DdsRtps.ShapeMain

open Utf8 (asBytes)
open Quoted (enclose Plain)

/-! ## Filters -/

/-- What `create_contentfilteredtopic` is given. -/
structure ContentFilter where
  expression : List UInt8
  parameters : List (List UInt8)
deriving DecidableEq, Repr

/-- A reader, and the filter of the topic that it is created on, if it has one. -/
structure CreatedReader where
  topic : Nat
  filter : Option ContentFilter
deriving DecidableEq, Repr

/-- The comparisons of a colour. -/
inductive Operator where
  | equals
  | matchesPattern
deriving DecidableEq, Repr

/-- `'`. -/
def quoteByte : UInt8 := 39

/-- A string of a filter expression has no quote and no newline in it. -/
def endsString (b : UInt8) : Bool := b == quoteByte || b == 10

/-- A string of a filter expression. -/
def stringLiteral (text : List UInt8) : Option (List UInt8) := Quoted.read quoteByte endsString text

/-- How a filter compares the colour, and with what; the parameters are values
themselves, or strings of filter expressions. -/
def ContentFilter.comparison (raw : Bool) (f : ContentFilter) : Option (Operator × List UInt8) :=
  if f.expression = asBytes "color MATCH %0" then
    (f.parameters.head?.bind stringLiteral).map (.matchesPattern, ·)
  else if f.expression = asBytes "color = %0" then
    (f.parameters.head?.bind (if raw then some else stringLiteral)).map (.equals, ·)
  else (((asBytes "color = ").isPrefixOf? f.expression).bind stringLiteral).map (.equals, ·)

/-- The filter compares with exactly this colour; of a pattern, nothing else is matched. -/
def ContentFilter.ComparesWith (pattern : List UInt8 → List UInt8 → Bool) (raw : Bool)
    (f : ContentFilter) (color : List UInt8) : Prop :=
  f.comparison raw = some (.equals, color) ∨
    f.comparison raw = some (.matchesPattern, color) ∧
      ∀ field, pattern color field = true ↔ field = color

/-! ## C++ -/

namespace CxxSubscriber

/-- The products that the program is compiled for. -/
inductive Product where
  | connextDds
  | connextMicro
  | intercom
  | coreDx
  | openDds
  | fastDds
deriving DecidableEq, Repr

/-- The options of a subscriber that decide about its filter. -/
structure Options where
  color : Option (List UInt8)
  cftExpression : Option (List UInt8)
  numTopics : UInt32
deriving DecidableEq, Repr

/-- What the middleware answers for each of the topics. -/
structure Answers where
  cft : Nat → Bool
  reader : Nat → Bool

/-- What `validate` does to the options of a subscriber. -/
def validate (product : Product) (options : Options) : Option Options :=
  if options.color.isSome && options.cftExpression.isSome then none
  else if product = .connextMicro then
    if options.cftExpression.isSome then none
    else some { options with color := none }  -- no content-filtered topics in Micro
  else some options

/-- `snprintf`. -/
def snprintf (size : Nat) (text : List UInt8) : List UInt8 := text.take (size - 1)

/-- The parameter that is pushed for a colour. -/
def parameter : Product → List UInt8 → List UInt8
  | .connextDds, color => snprintf 64 (enclose quoteByte color)
  | .intercom, color => snprintf 64 (enclose quoteByte color)
  | .coreDx, color => color
  | .openDds, color => color
  | .fastDds, color => enclose quoteByte color
  | .connextMicro, _ => []

/-- The expression for a colour. -/
def expression : Product → List UInt8
  | .connextDds => asBytes "color MATCH %0"
  | .connextMicro => []
  | _ => asBytes "color = %0"

/-- `cf_params`, and the readers so far. -/
structure State where
  cfParams : List (List UInt8)
  drs : List CreatedReader

/-- What `init_subscriber` returns, and the readers that it has created. -/
structure Subscribed where
  ok : Bool
  drs : List CreatedReader
deriving DecidableEq, Repr

variable (answers : Answers)

/-- A turn of the loop over the topics, with a filter for the next one. -/
def filteredStep (next : List (List UInt8) → ContentFilter) (i : Nat) (s : State) :
    State ⊕ Subscribed :=
  let filter := next s.cfParams
  if !answers.cft i then .inr ⟨false, s.drs⟩
  else if !answers.reader i then .inr ⟨false, s.drs⟩
  else .inl ⟨filter.parameters, s.drs ++ [⟨i, some filter⟩]⟩

/-- A turn of the loop without filters. -/
def plainStep (i : Nat) (s : State) : State ⊕ Subscribed :=
  if !answers.reader i then .inr ⟨false, s.drs⟩ else .inl ⟨s.cfParams, s.drs ++ [⟨i, none⟩]⟩

/-- The loop over the topics. -/
def createReaders (step : Nat → State → State ⊕ Subscribed) (numTopics : UInt32) : Subscribed :=
  (Loop.drive step (List.range numTopics.toNat) ⟨[], []⟩).elim (fun s => ⟨true, s.drs⟩) id

/-- The readers of `init_subscriber`; for Connext Micro, the branch of the filters is
left out. -/
def initSubscriber (product : Product) (options : Options) : Subscribed :=
  match options.cftExpression, options.color with
  | none, none => createReaders (plainStep answers) options.numTopics
  | some cftExpression, _ =>
      if product = .connextMicro then ⟨true, []⟩
      else
        let next := fun cfParams => ⟨cftExpression, cfParams⟩
        createReaders (filteredStep answers next) options.numTopics
  | none, some color =>
      if product = .connextMicro then ⟨true, []⟩
      else
        let next := fun cfParams => ⟨expression product, cfParams ++ [parameter product color]⟩
        createReaders (filteredStep answers next) options.numTopics

/-- A subscriber, from its options on, if they are valid. -/
def subscribe (product : Product) (options : Options) : Option Subscribed :=
  (validate product options).map (initSubscriber answers product)

end CxxSubscriber

/-! ## Zig -/

namespace Zig

/-- `std.fmt.bufPrintZ`. -/
def bufPrintZ (size : Nat) (text : List UInt8) : Option (List UInt8) :=
  if text.length + 1 ≤ size then some text else none

/-- `effective_cft_expr`. -/
def effectiveCftExpr (opts : CommandLine.Options) : Option (List UInt8) :=
  match opts.cftExpression with
  | some e => some (asBytes e)
  | none =>
      match opts.color with
      | some c => bufPrintZ 65 (asBytes "color = '" ++ asBytes c ++ asBytes "'")
      | none => none

/-- Is there a name for the filtered topic, and is it created? -/
structure CftAnswers where
  allocName : Bool
  created : Bool
deriving DecidableEq, Repr

variable (world : World) (opts : CommandLine.Options) (answers : CftAnswers)

/-- `cft`. -/
def cft : Option ContentFilter :=
  (effectiveCftExpr opts).bind fun expr =>
    if answers.allocName && answers.created then some ⟨expr, []⟩ else none

/-- A turn of the loop over the topics, with the readers so far. -/
def subscriberStep (et : ExtraTopics) (i : Nat) (s : Readers × List CreatedReader) :
    (Readers × List CreatedReader) ⊕ List CreatedReader :=
  match createReader world opts et s.1 i with
  | .error _ => .inr s.2
  | .ok readers => .inl (readers, s.2 ++ [⟨i, if i = 0 then cft opts answers else none⟩])

/-- The readers that `runSubscriber` creates. -/
def subscriberReaders : List CreatedReader :=
  match createExtraTopics world opts with
  | .error _ => []
  | .ok et =>
      if world.subscriber && world.buildQos then
        (Loop.drive (subscriberStep world opts answers et) (List.range opts.numTopics.toNat)
          (Readers.undefined, [])).elim Prod.snd id
      else []

end Zig

/-! ## How the filters of a colour compare -/

/-- The reader is created on a topic whose filter compares with exactly this colour. -/
def CreatedReader.Filters (pattern : List UInt8 → List UInt8 → Bool) (raw : Bool)
    (color : List UInt8) (r : CreatedReader) : Prop :=
  ∃ f, r.filter = some f ∧ f.ComparesWith pattern raw color

theorem isPrefixOf?_append {α : Type*} [BEq α] [LawfulBEq α] (l t : List α) :
    l.isPrefixOf? (l ++ t) = some t := by
  induction l with
  | nil => rfl
  | cons a l ih =>
      rw [List.cons_append, List.isPrefixOf?, if_pos (beq_self_eq_true a)]
      exact ih

section Comparison

variable {pattern : List UInt8 → List UInt8 → Bool} {raw : Bool} {color text : List UInt8}
  {parameters : List (List UInt8)}

theorem comparesWith_of_match {f : ContentFilter} {value : Option (List UInt8)}
    (h : f.comparison raw = value.map (.matchesPattern, ·)) :
    f.ComparesWith pattern raw color ↔
      value = some color ∧ ∀ field, pattern color field = true ↔ field = color := by
  rw [ContentFilter.ComparesWith, h]
  cases value with
  | none => simp
  | some value =>
      simp only [Option.map_some, Option.some_inj, Prod.mk.injEq, reduceCtorEq, false_and,
        true_and, false_or]

theorem comparesWith_of_equals {f : ContentFilter} {value : Option (List UInt8)}
    (h : f.comparison raw = value.map (.equals, ·)) :
    f.ComparesWith pattern raw color ↔ value = some color := by
  rw [ContentFilter.ComparesWith, h]
  cases value with
  | none => simp
  | some value =>
      simp only [Option.map_some, Option.some_inj, Prod.mk.injEq, reduceCtorEq, false_and,
        true_and, or_false]

theorem comparesWith_match_iff :
    ContentFilter.ComparesWith pattern raw ⟨asBytes "color MATCH %0", text :: parameters⟩ color ↔
      stringLiteral text = some color ∧ ∀ field, pattern color field = true ↔ field = color :=
  comparesWith_of_match (if_pos rfl)

theorem comparesWith_equals_iff :
    ContentFilter.ComparesWith pattern raw ⟨asBytes "color = %0", text :: parameters⟩ color ↔
      (if raw then some else stringLiteral) text = some color := by
  have hmatch : asBytes "color = %0" ≠ asBytes "color MATCH %0" := by decide
  refine comparesWith_of_equals ?_
  rw [ContentFilter.comparison, if_neg hmatch, if_pos rfl]
  rfl

/-- A colour that is written out stands between its quotes. -/
theorem comparesWith_written_iff :
    ContentFilter.ComparesWith pattern false
        ⟨asBytes "color = '" ++ color ++ asBytes "'", []⟩ color ↔ Plain endsString color := by
  have htext : asBytes "color = '" ++ color ++ asBytes "'" =
      asBytes "color = " ++ enclose quoteByte color := by
    have hquote : asBytes "color = '" = asBytes "color = " ++ [quoteByte] := by decide
    rw [hquote]
    simp only [enclose, List.append_assoc, List.cons_append, List.nil_append]
    rfl
  have hmatch : asBytes "color = " ++ enclose quoteByte color ≠ asBytes "color MATCH %0" := by
    intro h
    have hsixth : (some 61 : Option UInt8) = some 77 := congrArg (fun l => l[6]?) h
    exact absurd hsixth (by decide)
  have hequals : asBytes "color = " ++ enclose quoteByte color ≠ asBytes "color = %0" := by
    intro h
    have heighth : (some 39 : Option UInt8) = some 37 := congrArg (fun l => l[8]?) h
    exact absurd heighth (by decide)
  have hcomparison : ContentFilter.comparison false
      ⟨asBytes "color = " ++ enclose quoteByte color, []⟩ =
        (stringLiteral (enclose quoteByte color)).map (.equals, ·) := by
    rw [ContentFilter.comparison, if_neg hmatch, if_neg hequals, isPrefixOf?_append]
    rfl
  rw [htext, comparesWith_of_equals hcomparison]
  exact Quoted.read_eq_some_iff.trans (and_iff_right rfl)

end Comparison

/-! ## The readers that are created -/

/-- The readers of the first topics, up to one that is not created. -/
def FirstReaders (n : Nat) (created : Nat → Prop) (reader : Nat → CreatedReader)
    (drs : List CreatedReader) : Prop :=
  ∃ m ≤ n, drs = (List.range m).map reader ∧ (∀ k < m, created k) ∧ (m < n → ¬ created m)

/-- A reader is created where the one of its topic and those before it are. -/
theorem FirstReaders.forall_iff {n : Nat} {created : Nat → Prop} {reader : Nat → CreatedReader}
    {drs : List CreatedReader} (h : FirstReaders n created reader drs) {P : CreatedReader → Prop} :
    (∀ r ∈ drs, P r) ↔ ∀ i < n, (∀ k ≤ i, created k) → P (reader i) := by
  obtain ⟨m, hm, rfl, hcreated, hstop⟩ := h
  rw [List.forall_mem_map]
  constructor
  · intro hall i hi hbefore
    refine hall i (List.mem_range.mpr ?_)
    by_contra hle
    have hmi := Nat.le_of_not_lt hle
    exact hstop (Nat.lt_of_le_of_lt hmi hi) (hbefore m hmi)
  · intro hall i hi
    have him := List.mem_range.mp hi
    exact hall i (Nat.lt_of_lt_of_le him hm) fun k hk => hcreated k (Nat.lt_of_le_of_lt hk him)

/-- Where they are all alike, the first one decides. -/
theorem FirstReaders.forall_iff_of_alike {n : Nat} {created : Nat → Prop}
    {reader : Nat → CreatedReader} {drs : List CreatedReader}
    (h : FirstReaders n created reader drs) {P : CreatedReader → Prop} {Q : Prop}
    (halike : ∀ i, P (reader i) ↔ Q) : (∀ r ∈ drs, P r) ↔ (0 < n ∧ created 0 → Q) := by
  rw [h.forall_iff]
  constructor
  · rintro hall ⟨hpos, hfirst⟩
    refine (halike 0).mp (hall 0 hpos fun k hk => ?_)
    obtain rfl := Nat.le_zero.mp hk
    exact hfirst
  · intro hQ i hi hcreated
    exact (halike i).mpr (hQ ⟨Nat.lt_of_le_of_lt (Nat.zero_le i) hi, hcreated 0 (Nat.zero_le i)⟩)

namespace CxxSubscriber

variable {answers : Answers}

theorem firstReaders_createReaders {step : Nat → State → State ⊕ Subscribed}
    {created : Nat → Prop} {reader : Nat → CreatedReader} (params : Nat → List (List UInt8))
    (hparams : params 0 = [])
    (hgo : ∀ k drs, created k → step k ⟨params k, drs⟩ = .inl ⟨params (k + 1), drs ++ [reader k]⟩)
    (hstop : ∀ k drs, ¬ created k → step k ⟨params k, drs⟩ = .inr ⟨false, drs⟩)
    (numTopics : UInt32) :
    FirstReaders numTopics.toNat created reader (createReaders step numTopics).drs := by
  have hturn : ∀ k s s', (s = ⟨params k, (List.range k).map reader⟩ ∧ ∀ j < k, created j) →
      step k s = .inl s' →
      s' = ⟨params (k + 1), (List.range (k + 1)).map reader⟩ ∧ ∀ j < k + 1, created j := by
    rintro k s s' ⟨rfl, hbefore⟩ hs
    by_cases hk : created k
    · obtain rfl := Sum.inl.inj ((hgo k _ hk).symm.trans hs)
      refine ⟨?_, fun j hj => ?_⟩
      · rw [List.range_succ, List.map_append, List.map_singleton]
      · rcases Nat.lt_succ_iff_lt_or_eq.mp hj with hlt | rfl
        · exact hbefore j hlt
        · exact hk
    · exact absurd ((hstop k _ hk).symm.trans hs) nofun
  have hinit : (⟨[], []⟩ : State) = ⟨params 0, (List.range 0).map reader⟩ ∧
      ∀ j < 0, created j := by
    rw [hparams]
    exact ⟨rfl, nofun⟩
  rw [createReaders]
  rcases Loop.drive_range _ hturn hinit numTopics.toNat with
    ⟨t, ht, rfl, hcreated⟩ | ⟨m, hm, t, b, ⟨rfl, hbefore⟩, hexit, hb⟩
  · rw [ht]
    exact ⟨_, Nat.le_refl _, rfl, hcreated, fun hlt => absurd hlt (Nat.lt_irrefl _)⟩
  · rw [hb]
    have hnot : ¬ created m := fun hk => absurd ((hgo m _ hk).symm.trans hexit) nofun
    obtain rfl := Sum.inr.inj ((hstop m _ hnot).symm.trans hexit)
    exact ⟨m, Nat.le_of_lt hm, rfl, hbefore, fun _ => hnot⟩

/-- A parameter more for every topic. -/
theorem firstReaders_filtered (expr text : List UInt8) (numTopics : UInt32) :
    FirstReaders numTopics.toNat (fun k => answers.cft k = true ∧ answers.reader k = true)
      (fun k => ⟨k, some ⟨expr, List.replicate (k + 1) text⟩⟩)
      (createReaders (filteredStep answers fun cfParams => ⟨expr, cfParams ++ [text]⟩)
        numTopics).drs := by
  refine firstReaders_createReaders (fun k => List.replicate k text) rfl ?_ ?_ numTopics
  · rintro k drs ⟨hcft, hreader⟩
    rw [filteredStep, hcft, hreader, List.replicate_succ']
    rfl
  · intro k drs hnot
    rw [filteredStep]
    cases hcft : answers.cft k with
    | false => rfl
    | true =>
        cases hreader : answers.reader k with
        | false => rfl
        | true => exact absurd ⟨hcft, hreader⟩ hnot

theorem firstReaders_plain (numTopics : UInt32) :
    FirstReaders numTopics.toNat (fun k => answers.reader k = true) (fun k => ⟨k, none⟩)
      (createReaders (plainStep answers) numTopics).drs := by
  refine firstReaders_createReaders (fun _ => []) rfl ?_ ?_ numTopics
  · intro k drs hreader
    rw [plainStep, hreader]
    rfl
  · intro k drs hnot
    have hreader : answers.reader k = false := Bool.eq_false_iff.mpr hnot
    rw [plainStep, hreader]
    rfl

/-- The products that take a parameter for the value itself. -/
def Product.raw : Product → Bool
  | .coreDx => true
  | .openDds => true
  | _ => false

/-- What a colour has to be for a filter to compare with all of it. -/
def Product.Whole (pattern : List UInt8 → List UInt8 → Bool) (color : List UInt8) : Product → Prop
  | .connextDds => color.length ≤ 61 ∧ Plain endsString color ∧
      ∀ field, pattern color field = true ↔ field = color
  | .connextMicro => False
  | .intercom => color.length ≤ 61 ∧ Plain endsString color
  | .coreDx => True
  | .openDds => True
  | .fastDds => Plain endsString color

variable {pattern : List UInt8 → List UInt8 → Bool} {color : List UInt8}

theorem stringLiteral_cut_iff :
    stringLiteral (snprintf 64 (enclose quoteByte color)) = some color ↔
      color.length ≤ 61 ∧ Plain endsString color := by
  have hroom : color.length + 2 ≤ 64 - 1 ↔ color.length ≤ 61 := by omega
  rw [stringLiteral, snprintf, Quoted.read_take_enclose, hroom]

/-- The filter of a topic compares with all of the colour, or that of no topic does. -/
theorem comparesWith_parameter_iff {product : Product} (hproduct : product ≠ .connextMicro)
    (parameters : List (List UInt8)) :
    ContentFilter.ComparesWith pattern product.raw
        ⟨expression product, parameter product color :: parameters⟩ color ↔
      product.Whole pattern color := by
  cases product with
  | connextDds =>
      refine comparesWith_match_iff.trans ?_
      show stringLiteral (snprintf 64 (enclose quoteByte color)) = some color ∧ _ ↔ _
      rw [stringLiteral_cut_iff, and_assoc]
      rfl
  | connextMicro => exact absurd rfl hproduct
  | intercom => exact comparesWith_equals_iff.trans stringLiteral_cut_iff
  | coreDx => exact comparesWith_equals_iff.trans (iff_true_intro rfl)
  | openDds => exact comparesWith_equals_iff.trans (iff_true_intro rfl)
  | fastDds =>
      exact comparesWith_equals_iff.trans (Quoted.read_eq_some_iff.trans (and_iff_right rfl))

/-- The readers of a subscriber with a colour and no expression. -/
theorem firstReaders_subscribe {product : Product} {numTopics : UInt32} {subscribed : Subscribed}
    (h : subscribe answers product ⟨some color, none, numTopics⟩ = some subscribed) :
    (product = .connextMicro ∧
        FirstReaders numTopics.toNat (fun k => answers.reader k = true) (fun k => ⟨k, none⟩)
          subscribed.drs) ∨
      (product ≠ .connextMicro ∧
        FirstReaders numTopics.toNat (fun k => answers.cft k = true ∧ answers.reader k = true)
          (fun k => ⟨k, some ⟨expression product,
            List.replicate (k + 1) (parameter product color)⟩⟩) subscribed.drs) := by
  by_cases hproduct : product = .connextMicro
  · obtain rfl := hproduct
    obtain rfl := Option.some.inj h
    exact .inl ⟨rfl, firstReaders_plain numTopics⟩
  · have hvalid : validate product ⟨some color, none, numTopics⟩ =
        some ⟨some color, none, numTopics⟩ := if_neg hproduct
    have hinit : initSubscriber answers product ⟨some color, none, numTopics⟩ =
        createReaders (filteredStep answers fun cfParams =>
          ⟨expression product, cfParams ++ [parameter product color]⟩) numTopics :=
      if_neg hproduct
    rw [subscribe, hvalid, Option.map_some, hinit] at h
    obtain rfl := Option.some.inj h
    exact .inr ⟨hproduct, firstReaders_filtered _ _ numTopics⟩

/-- The first reader is created. -/
def FirstCreated (answers : Answers) (product : Product) (numTopics : UInt32) : Prop :=
  0 < numTopics.toNat ∧ (product ≠ .connextMicro → answers.cft 0 = true) ∧
    answers.reader 0 = true

theorem filters_all_iff {product : Product} {numTopics : UInt32} {subscribed : Subscribed}
    (h : subscribe answers product ⟨some color, none, numTopics⟩ = some subscribed) :
    (∀ r ∈ subscribed.drs, r.Filters pattern product.raw color) ↔
      (FirstCreated answers product numTopics → product.Whole pattern color) := by
  rcases firstReaders_subscribe h with ⟨rfl, hdrs⟩ | ⟨hproduct, hdrs⟩
  · have hnone : ∀ i, CreatedReader.Filters pattern (Product.raw .connextMicro) color ⟨i, none⟩ ↔
        Product.Whole pattern color .connextMicro := by
      intro i
      refine iff_of_false ?_ not_false
      rintro ⟨f, hf, -⟩
      cases hf
    refine (hdrs.forall_iff_of_alike hnone).trans (imp_congr_left ?_)
    exact ⟨fun ⟨hpos, hreader⟩ => ⟨hpos, nofun, hreader⟩, fun ⟨hpos, _, hreader⟩ => ⟨hpos, hreader⟩⟩
  · have hsame : ∀ i, CreatedReader.Filters pattern product.raw color
        ⟨i, some ⟨expression product, List.replicate (i + 1) (parameter product color)⟩⟩ ↔
          product.Whole pattern color := by
      intro i
      rw [← comparesWith_parameter_iff hproduct (List.replicate i (parameter product color))]
      exact ⟨fun ⟨f, hf, hcompares⟩ => Option.some.inj hf ▸ hcompares, fun h => ⟨_, rfl, h⟩⟩
    refine (hdrs.forall_iff_of_alike hsame).trans (imp_congr_left ?_)
    exact and_congr_right fun _ => and_congr_left fun _ => (imp_iff_right hproduct).symm

end CxxSubscriber

namespace Zig

variable {world : World} {opts : CommandLine.Options} {answers : CftAnswers} {et : ExtraTopics}

theorem le_maxTopics {k : Nat} {P : Nat → Prop} (h : ∀ j < k, j < maxTopics ∧ P j) :
    k ≤ maxTopics := by
  by_contra hlt
  exact Nat.lt_irrefl maxTopics (h maxTopics (Nat.lt_of_not_le hlt)).1

/-- The reader of a topic is created if its place is in the arrays, and it is one. -/
theorem createReader_eq_ok_iff {i : Nat} (hi : i ≤ maxTopics) (readers : Readers) :
    (∃ readers', createReader world opts et readers i = .ok readers') ↔
      i < maxTopics ∧ (world.createDatareader i).isSome = true := by
  obtain ⟨tn, hname⟩ := nameAt_ok hi et opts.topicName
  rw [createReader, hname]
  by_cases hlt : i < maxTopics
  · simp only [store, load, CheckedArray.write_of_lt hlt, bind, Except.bind,
      CheckedArray.read_set hlt]
    cases world.createDatareader i with
    | none => simp [ensure]
    | some handle => simp [ensure, hlt]
  · simp only [store, CheckedArray.write_of_le (Nat.le_of_not_lt hlt), bind, Except.bind]
    simp [hlt]

/-- The reader of a topic; only the first one may have a filter. -/
def readerOn (opts : CommandLine.Options) (answers : CftAnswers) (i : Nat) : CreatedReader :=
  ⟨i, if i = 0 then cft opts answers else none⟩

/-- Before the turn of a topic: each of those before it has its reader. -/
def Reached (world : World) (opts : CommandLine.Options) (answers : CftAnswers) (k : Nat)
    (s : Readers × List CreatedReader) : Prop :=
  s.2 = (List.range k).map (readerOn opts answers) ∧
    ∀ j < k, j < maxTopics ∧ (world.createDatareader j).isSome = true

theorem reached_step {k : Nat} {s s' : Readers × List CreatedReader}
    (h : Reached world opts answers k s)
    (hstep : subscriberStep world opts answers et k s = .inl s') :
    Reached world opts answers (k + 1) s' := by
  obtain ⟨hs, hbefore⟩ := h
  rw [subscriberStep] at hstep
  split at hstep
  · cases hstep
  · rename_i readers hreaders
    obtain rfl := Sum.inl.inj hstep
    have hk := (createReader_eq_ok_iff (le_maxTopics hbefore) s.1).mp ⟨readers, hreaders⟩
    refine ⟨?_, fun j hj => ?_⟩
    · rw [List.range_succ, List.map_append, List.map_singleton, hs]
      rfl
    · rcases Nat.lt_succ_iff_lt_or_eq.mp hj with hlt | rfl
      · exact hbefore j hlt
      · exact hk

theorem firstReaders_loop (et : ExtraTopics) (n : Nat) :
    FirstReaders n (fun k => k < maxTopics ∧ (world.createDatareader k).isSome = true)
      (readerOn opts answers)
      ((Loop.drive (subscriberStep world opts answers et) (List.range n)
        (Readers.undefined, [])).elim Prod.snd id) := by
  have hinit : Reached world opts answers 0 (Readers.undefined, []) := ⟨rfl, nofun⟩
  rcases Loop.drive_range (Reached world opts answers) (fun _ _ _ h hs => reached_step h hs) hinit n
    with ⟨t, ht, hmade, hcreated⟩ | ⟨m, hm, t, b, ⟨hmade, hbefore⟩, hexit, hb⟩
  · rw [ht]
    exact ⟨n, Nat.le_refl n, hmade, hcreated, fun hlt => absurd hlt (Nat.lt_irrefl n)⟩
  · rw [hb]
    rw [subscriberStep] at hexit
    split at hexit
    · rename_i stop hstop
      obtain rfl := Sum.inr.inj hexit
      refine ⟨m, Nat.le_of_lt hm, hmade, hbefore, fun _ hcreated => ?_⟩
      obtain ⟨readers, hreaders⟩ := (createReader_eq_ok_iff (le_maxTopics hbefore) t.1).mpr hcreated
      cases hstop.symm.trans hreaders
    · cases hexit

/-- `runSubscriber` comes to create its first reader, and it is one. -/
def FirstCreated (world : World) (opts : CommandLine.Options) : Prop :=
  (∃ et, createExtraTopics world opts = .ok et) ∧ world.subscriber = true ∧
    world.buildQos = true ∧ (world.createDatareader 0).isSome = true

/-- Then there is a second one. -/
def SecondCreated (world : World) (opts : CommandLine.Options) : Prop :=
  1 < opts.numTopics.toNat ∧ (world.createDatareader 1).isSome = true

/-- There is a filter when there is room for it and its topic is created. -/
theorem cft_eq_some_iff {c : String} (hcolor : opts.color = some c)
    (hcft : opts.cftExpression = none) {f : ContentFilter} :
    cft opts answers = some f ↔
      (answers.allocName = true ∧ answers.created = true ∧ (asBytes c).length ≤ 54) ∧
        f = ⟨asBytes "color = '" ++ asBytes c ++ asBytes "'", []⟩ := by
  have hlength : (asBytes "color = '" ++ asBytes c ++ asBytes "'").length =
      (asBytes c).length + 10 := by
    rw [List.length_append, List.length_append]
    show 9 + (asBytes c).length + 1 = _
    omega
  have hexpr : effectiveCftExpr opts =
      if (asBytes c).length + 10 + 1 ≤ 65 then
        some (asBytes "color = '" ++ asBytes c ++ asBytes "'")
      else none := by
    rw [effectiveCftExpr, hcft, hcolor, ← hlength]
    rfl
  rw [cft, hexpr, Option.bind_eq_some_iff]
  constructor
  · rintro ⟨expr, hfits, hmade⟩
    rw [Option.ite_none_right_eq_some] at hfits hmade
    obtain ⟨hroom, hexpr⟩ := hfits
    obtain ⟨hanswers, hf⟩ := hmade
    obtain ⟨halloc, hcreated⟩ := Bool.and_eq_true_iff.mp hanswers
    refine ⟨⟨halloc, hcreated, by omega⟩, ?_⟩
    rw [← Option.some.inj hf, Option.some.inj hexpr]
  · rintro ⟨⟨halloc, hcreated, hroom⟩, rfl⟩
    refine ⟨_, if_pos (by omega), if_pos ?_⟩
    rw [halloc, hcreated]
    rfl

/-- Where the filter compares with all of the colour. -/
def Whole (answers : CftAnswers) (color : List UInt8) : Prop :=
  answers.allocName = true ∧ answers.created = true ∧ color.length ≤ 54 ∧ Plain endsString color

theorem filters_first_iff {pattern : List UInt8 → List UInt8 → Bool} {c : String}
    (hcolor : opts.color = some c) (hcft : opts.cftExpression = none) :
    (readerOn opts answers 0).Filters pattern false (asBytes c) ↔ Whole answers (asBytes c) := by
  constructor
  · rintro ⟨f, hf, hcompares⟩
    obtain ⟨⟨halloc, hcreated, hroom⟩, rfl⟩ := (cft_eq_some_iff hcolor hcft).mp hf
    exact ⟨halloc, hcreated, hroom, comparesWith_written_iff.mp hcompares⟩
  · rintro ⟨halloc, hcreated, hroom, hplain⟩
    exact ⟨_, (cft_eq_some_iff hcolor hcft).mpr ⟨⟨halloc, hcreated, hroom⟩, rfl⟩,
      comparesWith_written_iff.mpr hplain⟩

/-- A second reader has no filter. -/
theorem not_filters_second {pattern : List UInt8 → List UInt8 → Bool} {color : List UInt8} {i : Nat}
    (hi : i ≠ 0) : ¬ (readerOn opts answers i).Filters pattern false color := by
  rintro ⟨f, hf, -⟩
  rw [readerOn, if_neg hi] at hf
  cases hf

/-- The readers of a loop that is come to. -/
theorem filters_loop_iff {pattern : List UInt8 → List UInt8 → Bool} {c : String}
    (hcolor : opts.color = some c) (hcft : opts.cftExpression = none) {n : Nat} (hn : 0 < n)
    {drs : List CreatedReader}
    (h : FirstReaders n (fun k => k < maxTopics ∧ (world.createDatareader k).isSome = true)
      (readerOn opts answers) drs) :
    (∀ r ∈ drs, r.Filters pattern false (asBytes c)) ↔
      ((world.createDatareader 0).isSome = true → Whole answers (asBytes c) ∧
        ¬ (1 < n ∧ (world.createDatareader 1).isSome = true)) := by
  have hzero : 0 < maxTopics := by decide
  have hone : 1 < maxTopics := by decide
  rw [h.forall_iff]
  constructor
  · intro hall hfirst
    have hbefore : ∀ k ≤ 0, k < maxTopics ∧ (world.createDatareader k).isSome = true := by
      intro k hk
      obtain rfl := Nat.le_zero.mp hk
      exact ⟨hzero, hfirst⟩
    refine ⟨(filters_first_iff hcolor hcft).mp (hall 0 hn hbefore), ?_⟩
    rintro ⟨hlt, hsecond⟩
    refine not_filters_second Nat.one_ne_zero (hall 1 hlt fun k hk => ?_)
    rcases Nat.le_one_iff_eq_zero_or_eq_one.mp hk with rfl | rfl
    · exact ⟨hzero, hfirst⟩
    · exact ⟨hone, hsecond⟩
  · intro hwhole i hi hcreated
    obtain ⟨hfilter, hnone⟩ := hwhole (hcreated 0 (Nat.zero_le i)).2
    obtain rfl | hpos := Nat.eq_zero_or_pos i
    · exact (filters_first_iff hcolor hcft).mpr hfilter
    · exact (hnone ⟨Nat.lt_of_le_of_lt hpos hi, (hcreated 1 hpos).2⟩).elim

theorem numTopics_pos {et : ExtraTopics} (h : createExtraTopics world opts = .ok et) :
    0 < opts.numTopics.toNat := by
  rw [createExtraTopics] at h
  split at h
  · cases h
  · rename_i hne
    exact toNat_pos hne

theorem filters_all_iff {pattern : List UInt8 → List UInt8 → Bool} {c : String}
    (hcolor : opts.color = some c) (hcft : opts.cftExpression = none) :
    (∀ r ∈ subscriberReaders world opts answers, r.Filters pattern false (asBytes c)) ↔
      (FirstCreated world opts → Whole answers (asBytes c) ∧ ¬ SecondCreated world opts) := by
  rw [subscriberReaders]
  cases het : createExtraTopics world opts with
  | error stop =>
      refine iff_of_true (fun r hr => absurd hr List.not_mem_nil) ?_
      rintro ⟨⟨et, hok⟩, -⟩
      cases het.symm.trans hok
  | ok et =>
      dsimp only
      split
      · rename_i hentities
        obtain ⟨hsubscriber, hqos⟩ := Bool.and_eq_true_iff.mp hentities
        rw [filters_loop_iff hcolor hcft (numTopics_pos het) (firstReaders_loop et _)]
        constructor
        · rintro h ⟨-, -, -, hfirst⟩
          exact h hfirst
        · intro h hfirst
          exact h ⟨⟨et, het⟩, hsubscriber, hqos, hfirst⟩
      · rename_i hentities
        refine iff_of_true (fun r hr => absurd hr List.not_mem_nil) ?_
        rintro ⟨-, hsubscriber, hqos, -⟩
        exact absurd (Bool.and_eq_true_iff.mpr ⟨hsubscriber, hqos⟩) hentities

end Zig

/-! ## Both subscribers -/

/-- A subscriber with a colour and no expression. -/
inductive Subscription where
  | cxx (product : CxxSubscriber.Product) (color : List UInt8) (numTopics : UInt32)
      (answers : CxxSubscriber.Answers) (subscribed : CxxSubscriber.Subscribed)
      (runs : CxxSubscriber.subscribe answers product ⟨some color, none, numTopics⟩ =
        some subscribed)
  | zig (color : String) (world : Zig.World) (opts : Zig.CommandLine.Options)
      (answers : Zig.CftAnswers) (given : opts.color = some color)
      (none_ : opts.cftExpression = none)

namespace Subscription

/-- The colour that is given. -/
def color : Subscription → List UInt8
  | cxx _ color .. => color
  | zig color .. => asBytes color

/-- Are parameters of filters the values themselves? -/
def raw : Subscription → Bool
  | cxx product .. => product.raw
  | zig .. => false

/-- The readers that are created. -/
def readers : Subscription → List CreatedReader
  | cxx _ _ _ _ subscribed _ => subscribed.drs
  | zig _ world opts answers _ _ => Zig.subscriberReaders world opts answers

/-- Every reader is created on a topic whose filter compares with exactly the colour. -/
def FiltersInFull (pattern : List UInt8 → List UInt8 → Bool) (s : Subscription) : Prop :=
  ∀ r ∈ s.readers, r.Filters pattern s.raw s.color

/-- What has to hold where a first reader is created. -/
def Whole (pattern : List UInt8 → List UInt8 → Bool) : Subscription → Prop
  | cxx product color numTopics answers _ _ =>
      CxxSubscriber.FirstCreated answers product numTopics → product.Whole pattern color
  | zig color world opts answers _ _ =>
      Zig.FirstCreated world opts →
        Zig.Whole answers (asBytes color) ∧ ¬ Zig.SecondCreated world opts

/-- A colour is applied in full where there is room for it and it is a string, and
in Zig for one topic alone. -/
theorem filtersInFull_iff (pattern : List UInt8 → List UInt8 → Bool) (s : Subscription) :
    s.FiltersInFull pattern ↔ s.Whole pattern := by
  cases s with
  | cxx product color numTopics answers subscribed runs =>
      exact CxxSubscriber.filters_all_iff runs
  | zig color world opts answers given none_ => exact Zig.filters_all_iff given none_

/-- `-c RED` and two topics, in InterCOM. -/
def twoTopics : Subscription :=
  .cxx .intercom (asBytes "RED") 2 ⟨fun _ => true, fun _ => true⟩
    ⟨true, [⟨0, some ⟨asBytes "color = %0", [asBytes "'RED'"]⟩⟩,
      ⟨1, some ⟨asBytes "color = %0", [asBytes "'RED'", asBytes "'RED'"]⟩⟩]⟩ (by decide)

/-- Both readers have their filter. -/
theorem filtersInFull_iff_two_topics :
    twoTopics.readers.length = 2 ∧ twoTopics.FiltersInFull fun text field => text == field :=
  ⟨rfl, (filtersInFull_iff _ twoTopics).mpr fun _ => ⟨by decide, by decide⟩⟩

/-- A colour of 55 characters. -/
def fiftyFive : String := String.ofList (List.replicate 55 'A')

/-- It is given in Zig, and nothing fails. -/
def longColor : Subscription :=
  .zig fiftyFive Zig.lucky { subscribe := true, color := some fiftyFive } ⟨true, true⟩ rfl rfl

/-- Its reader is created on the topic itself. -/
theorem not_filtersInFull_long :
    ¬ ∀ (pattern : List UInt8 → List UInt8 → Bool) (s : Subscription), s.color.length ≤ 128 →
      s.FiltersInFull pattern := by
  intro h
  have hreaders : longColor.readers = [⟨0, none⟩] := by decide
  have hreader : ⟨0, none⟩ ∈ longColor.readers := hreaders ▸ List.mem_singleton.mpr rfl
  obtain ⟨f, hf, -⟩ := h (fun _ _ => false) longColor (by decide) ⟨0, none⟩ hreader
  cases hf

end Subscription

end DdsRtps.ShapeMain
