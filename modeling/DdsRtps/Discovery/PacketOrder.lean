/-
# `DdsRtps.Discovery.PacketOrder` — participants and the order of the packets

What is recorded of a participant depends on the packets with its prefix alone,
and of these on what the walk finds (`get?_parsePackets`).  A record starts with
the first of them and is patched by the others: locators add up, but a mask is
taken over only with a flag in it, and a lease only if it is not zero.

So when all packets that announce something announce the same, the record does
not depend on their order, unless a packet that announces nothing may come
first and the announcement is then not taken over (`orderFree_iff`).
-/
import DdsRtps.Discovery.JunitReport

namespace DdsRtps.Discovery

/-! ## The record of a participant -/

/-- What the order of the packets must not change. -/
structure View where
  mask : List Char
  flags : List (List Char)
  lease : PyFloat
  locators : List Locator

def Participant.view (part : Participant) : View :=
  ⟨part.builtinEndpointsMask, part.builtinEndpointsFlags, part.leaseDurationSec, part.locators⟩

/-- The mask of a participant of which none is known. -/
def unknownMask : List Char := "unknown".toList

/-- The lease of a participant of which none is known. -/
def defaultLease : PyFloat := .finite "20.0".toList false 20

/-- The record of a first packet. -/
def freshView (spdp : Spdp) : View where
  mask := spdp.builtinEndpointsMask.getD unknownMask
  flags := spdp.builtinEndpointsFlags.getD []
  lease := spdp.leaseDurationSec.getD defaultLease
  locators := Keyed.addAll id [] spdp.locatorsFound

/-- The record after a further packet. -/
def augmentView (v : View) (spdp : Spdp) : View where
  mask :=
    if v.flags = [] ∧ spdp.builtinEndpointsFlags.getD [] ≠ [] then
      spdp.builtinEndpointsMask.getD v.mask
    else v.mask
  flags :=
    if v.flags = [] ∧ spdp.builtinEndpointsFlags.getD [] ≠ [] then
      spdp.builtinEndpointsFlags.getD []
    else v.flags
  lease := (spdp.leaseDurationSec.filter PyFloat.truthy).getD v.lease
  locators := Keyed.addAll id v.locators spdp.locatorsFound

/-- The record after a packet with the prefix of the participant. -/
def viewStep (v : Option View) (spdp : Spdp) : Option View :=
  match v with
  | none => some (freshView spdp)
  | some v => some (augmentView v spdp)

theorem view_augment (spdp : Spdp) (part : Participant) :
    (augment spdp part).view = augmentView part.view spdp := by
  unfold augment augmentView Participant.view
  by_cases hflags : part.builtinEndpointsFlags = [] ∧ spdp.builtinEndpointsFlags.getD [] ≠ []
  · simp only [if_pos hflags]
    cases spdp.leaseDurationSec.filter PyFloat.truthy <;> rfl
  · simp only [if_neg hflags]
    cases spdp.leaseDurationSec.filter PyFloat.truthy <;> rfl

variable {py : PyInterp}

theorem view_newParticipant {spdp : Spdp} {header : Header} {guid : List Char}
    {part : Participant} (h : newParticipant py spdp header guid = .ok part) :
    part.view = freshView spdp := by
  unfold newParticipant at h
  obtain ⟨version, -, h⟩ := PyError.bind_eq_ok_iff.mp h
  obtain rfl := Except.ok.inj h
  rfl

theorem view_recordParticipant {spdp : Spdp} {header : Header}
    {participants participants' : PyDict (List Char) Participant}
    (h : recordParticipant py spdp header participants = .ok participants') (guid : List Char) :
    (participants'.get? guid).map Participant.view =
      if guidP py spdp header = some guid then
        viewStep ((participants.get? guid).map Participant.view) spdp
      else (participants.get? guid).map Participant.view := by
  unfold recordParticipant at h
  split at h
  · rename_i hguid
    obtain rfl := Except.ok.inj h
    rw [hguid, if_neg (Option.some_ne_none guid).symm]
  · rename_i key hkey
    by_cases hsame : guid = key
    · subst hsame
      rw [hkey, if_pos rfl]
      split at h
      · rename_i hnone
        obtain ⟨part, hpart, h⟩ := PyError.bind_eq_ok_iff.mp h
        obtain rfl := Except.ok.inj h
        rw [PyDict.get?_setDefault, if_pos rfl, hnone, Option.getD_none, Option.map_some,
          view_newParticipant hpart]
        rfl
      · rename_i part hsome
        obtain rfl := Except.ok.inj h
        rw [PyDict.get?_modify, hsome, Option.map_some, if_pos rfl, Option.map_some, view_augment]
        rfl
    · rw [hkey, if_neg fun heq => hsame (Option.some.inj heq).symm]
      split at h
      · obtain ⟨part, -, h⟩ := PyError.bind_eq_ok_iff.mp h
        obtain rfl := Except.ok.inj h
        rw [PyDict.get?_setDefault, if_neg hsame]
      · obtain rfl := Except.ok.inj h
        rw [PyDict.get?_modify]
        cases participants.get? guid with
        | none => rfl
        | some part => rw [Option.map_some, if_neg hsame]

/-! ## The packets of a participant -/

variable (py)

/-- What the walk over a packet finds, with its header. -/
def newsOf (pkt : Json) : Except PyError (Header × Spdp) := do
  let header ← readHeader pkt
  let spdp ← walkTree (inspectSpdpNode py) header.rtps Spdp.empty
  return (header, spdp)

/-- What a packet tells of a participant. -/
def tellsOf (guid : List Char) (pkt : Json) : Option Spdp :=
  match newsOf py pkt with
  | .ok (header, spdp) => if guidP py spdp header = some guid then some spdp else none
  | .error _ => none

variable {py}

theorem view_parsePacket {store store' : Store} {pkt : Json}
    (h : parsePacket py store pkt = .ok store') (guid : List Char) :
    (store'.participants.get? guid).map Participant.view =
      match tellsOf py guid pkt with
      | some spdp => viewStep ((store.participants.get? guid).map Participant.view) spdp
      | none => (store.participants.get? guid).map Participant.view := by
  obtain ⟨header, spdp, hheader, hwalk, hrecord, -⟩ := parsePacket_cases h
  have hnews : newsOf py pkt = .ok (header, spdp) := by
    rw [newsOf, hheader, PyError.ok_bind, hwalk]
    rfl
  rw [view_recordParticipant hrecord, tellsOf, hnews]
  simp only
  split <;> rfl

/-- The record of a participant is made of what the packets tell of it. -/
theorem view_foldlM_parsePacket {rawPackets : List Json} {store store' : Store}
    (h : rawPackets.foldlM (parsePacket py) store = .ok store') (guid : List Char) :
    (store'.participants.get? guid).map Participant.view =
      (rawPackets.filterMap (tellsOf py guid)).foldl viewStep
        ((store.participants.get? guid).map Participant.view) := by
  induction rawPackets generalizing store with
  | nil =>
      obtain rfl := Except.ok.inj h
      rfl
  | cons pkt rawPackets ih =>
      obtain ⟨middle, hpkt, hrest⟩ := PyError.bind_eq_ok_iff.mp h
      rw [ih hrest, view_parsePacket hpkt]
      cases htells : tellsOf py guid pkt with
      | none => rw [List.filterMap_cons_none htells]
      | some spdp => rw [List.filterMap_cons_some htells, List.foldl_cons]

theorem view_parsePackets {rawPackets : List Json} {store : Store}
    (h : parsePackets py rawPackets = .ok store) (guid : List Char) :
    (store.participants.get? guid).map Participant.view =
      (rawPackets.filterMap (tellsOf py guid)).foldl viewStep none :=
  view_foldlM_parsePacket h guid

/-! ## Announcements -/

/-- The packet has a mask, a lease or locators. -/
def Spdp.Announces (spdp : Spdp) : Prop :=
  spdp.builtinEndpointsMask.isSome ∨ spdp.builtinEndpointsFlags.isSome ∨
    spdp.leaseDurationSec.isSome ∨ spdp.locatorsFound ≠ []

/-- Two packets announce the same. -/
structure SameNews (a b : Spdp) : Prop where
  mask : a.builtinEndpointsMask = b.builtinEndpointsMask
  flags : a.builtinEndpointsFlags = b.builtinEndpointsFlags
  lease : a.leaseDurationSec = b.leaseDurationSec
  locators : ∀ loc, loc ∈ a.locatorsFound ↔ loc ∈ b.locatorsFound

/-- An announcement that replaces the defaults: it has a flag, or no mask to
replace, and no lease that counts as none. -/
structure Taken (spdp : Spdp) : Prop where
  mask : spdp.builtinEndpointsFlags.getD [] ≠ [] ∨
    spdp.builtinEndpointsMask.getD unknownMask = unknownMask
  lease : ∀ lease ∈ spdp.leaseDurationSec, lease.truthy = true

/-- The mask, the flags and the lease of a record are those of an announcement; of
none, if it is empty. -/
structure HasCore (v : View) (spdp : Spdp) : Prop where
  mask : v.mask = spdp.builtinEndpointsMask.getD unknownMask
  flags : v.flags = spdp.builtinEndpointsFlags.getD []
  lease : v.lease = spdp.leaseDurationSec.getD defaultLease

theorem none_of_not_announces {spdp : Spdp} (h : ¬spdp.Announces) :
    spdp.builtinEndpointsMask = none ∧ spdp.builtinEndpointsFlags = none ∧
      spdp.leaseDurationSec = none ∧ spdp.locatorsFound = [] := by
  simpa [Spdp.Announces] using h

theorem hasCore_fresh (spdp : Spdp) : HasCore (freshView spdp) spdp := ⟨rfl, rfl, rfl⟩

theorem hasCore_fresh_empty {spdp : Spdp} (h : ¬spdp.Announces) :
    HasCore (freshView spdp) Spdp.empty := by
  obtain ⟨hmask, hflags, hlease, -⟩ := none_of_not_announces h
  unfold freshView
  rw [hmask, hflags, hlease]
  exact ⟨rfl, rfl, rfl⟩

/-- A packet that announces nothing changes nothing. -/
theorem HasCore.silent {v : View} {b spdp : Spdp} (hv : HasCore v b) (h : ¬spdp.Announces) :
    HasCore (augmentView v spdp) b := by
  obtain ⟨-, hflags, hlease, -⟩ := none_of_not_announces h
  unfold augmentView
  rw [hflags, hlease]
  refine ⟨?_, ?_, hv.lease⟩
  · simpa using hv.mask
  · simpa using hv.flags

/-- What is recorded is not changed by the same announcement. -/
theorem HasCore.same {v : View} {b spdp : Spdp} (hv : HasCore v b) (h : SameNews spdp b) :
    HasCore (augmentView v spdp) b := by
  have hflags : ¬(v.flags = [] ∧ spdp.builtinEndpointsFlags.getD [] ≠ []) := by
    rw [hv.flags, h.flags]
    exact fun hboth => hboth.2 hboth.1
  unfold augmentView
  simp only [if_neg hflags]
  refine ⟨hv.mask, hv.flags, ?_⟩
  simp only [h.lease, hv.lease]
  cases b.leaseDurationSec with
  | none => rfl
  | some lease => cases htruthy : lease.truthy <;> simp [Option.filter, htruthy]

/-- An announcement replaces the defaults. -/
theorem HasCore.taken {v : View} {spdp : Spdp} (hv : HasCore v Spdp.empty) (h : Taken spdp) :
    HasCore (augmentView v spdp) spdp := by
  have hflags : v.flags = [] := hv.flags
  have hmask : v.mask = unknownMask := hv.mask
  have hlease : v.lease = defaultLease := hv.lease
  unfold augmentView
  rw [hflags, hmask, hlease]
  refine ⟨?_, ?_, ?_⟩
  · by_cases hnone : spdp.builtinEndpointsFlags.getD [] = []
    · simp [hnone, h.mask.resolve_left (absurd hnone)]
    · simp [hnone]
  · by_cases hnone : spdp.builtinEndpointsFlags.getD [] = [] <;> simp [hnone]
  · cases hsome : spdp.leaseDurationSec with
    | none => rfl
    | some lease => simp [Option.filter, h.lease lease hsome]

/-! ## The run over the packets of a participant -/

/-- The packets that announce something announce the same. -/
def Consistent (tells : List Spdp) : Prop :=
  ∀ a ∈ tells, ∀ b ∈ tells, a.Announces → b.Announces → SameNews a b

theorem HasCore.foldl {tells : List Spdp} {v : View} {b : Spdp} (hv : HasCore v b)
    (h : ∀ a ∈ tells, a.Announces → SameNews a b) :
    HasCore (tells.foldl augmentView v) b := by
  induction tells generalizing v with
  | nil => exact hv
  | cons a tells ih =>
      rw [List.forall_mem_cons] at h
      rw [List.foldl_cons]
      refine ih ?_ h.2
      by_cases hannounces : a.Announces
      · exact hv.same (h.1 hannounces)
      · exact hv.silent hannounces

theorem HasCore.foldl_taken {tells : List Spdp} {v : View} (hv : HasCore v Spdp.empty)
    (hconsistent : Consistent tells) (htaken : ∀ a ∈ tells, a.Announces → Taken a) :
    ∀ a ∈ tells, a.Announces → HasCore (tells.foldl augmentView v) a := by
  induction tells generalizing v with
  | nil => simp
  | cons b tells ih =>
      intro a ha hannounces
      rw [List.forall_mem_cons] at htaken
      rw [List.foldl_cons]
      by_cases hb : b.Announces
      · have hcore : HasCore (augmentView v b) b := hv.taken (htaken.1 hb)
        have hsame := hconsistent b List.mem_cons_self a ha hb hannounces
        have hcore' : HasCore (augmentView v b) a :=
          ⟨by rw [hcore.mask, hsame.mask], by rw [hcore.flags, hsame.flags],
            by rw [hcore.lease, hsame.lease]⟩
        exact hcore'.foldl fun c hc hcannounces =>
          hconsistent c (List.mem_cons_of_mem _ hc) a ha hcannounces hannounces
      · have hmem : a ∈ tells := by
          rcases List.mem_cons.mp ha with rfl | hmem
          · exact absurd hannounces hb
          · exact hmem
        exact ih (hv.silent hb)
          (fun c hc d hd => hconsistent c (List.mem_cons_of_mem _ hc) d (List.mem_cons_of_mem _ hd))
          htaken.2 a hmem hannounces

/-- Where the first packet may be silent, the announcements are taken over. -/
def TakenBesideSilence (tells : List Spdp) : Prop :=
  (∃ b ∈ tells, ¬b.Announces) → ∀ a ∈ tells, a.Announces → Taken a

theorem foldl_viewStep_cons (a : Spdp) (tells : List Spdp) :
    (a :: tells).foldl viewStep none = some (tells.foldl augmentView (freshView a)) := by
  rw [List.foldl_cons]
  show tells.foldl viewStep (some (freshView a)) = _
  generalize freshView a = v
  induction tells generalizing v with
  | nil => rfl
  | cons b tells ih => exact ih (augmentView v b)

/-- The record of a participant shows what is announced. -/
theorem hasCore_foldl_viewStep {tells : List Spdp} (hconsistent : Consistent tells)
    (htaken : TakenBesideSilence tells) {v : View} (hv : tells.foldl viewStep none = some v) :
    (∀ a ∈ tells, a.Announces → HasCore v a) ∧
      ((∀ a ∈ tells, ¬a.Announces) → HasCore v Spdp.empty) := by
  cases tells with
  | nil => cases hv
  | cons b tells =>
      rw [foldl_viewStep_cons] at hv
      obtain rfl := Option.some.inj hv
      constructor
      · intro a ha hannounces
        by_cases hb : b.Announces
        · have hsame := hconsistent b List.mem_cons_self a ha hb hannounces
          have hcore : HasCore (freshView b) a :=
            ⟨by rw [← hsame.mask]; rfl, by rw [← hsame.flags]; rfl, by rw [← hsame.lease]; rfl⟩
          exact hcore.foldl fun c hc hcannounces =>
            hconsistent c (List.mem_cons_of_mem _ hc) a ha hcannounces hannounces
        · have hall := htaken ⟨b, List.mem_cons_self, hb⟩
          have hmem : a ∈ tells := by
            rcases List.mem_cons.mp ha with rfl | hmem
            · exact absurd hannounces hb
            · exact hmem
          exact (hasCore_fresh_empty hb).foldl_taken
            (fun c hc d hd =>
              hconsistent c (List.mem_cons_of_mem _ hc) d (List.mem_cons_of_mem _ hd))
            (fun c hc => hall c (List.mem_cons_of_mem _ hc)) a hmem hannounces
      · intro hsilent
        rw [List.forall_mem_cons] at hsilent
        exact (hasCore_fresh_empty hsilent.1).foldl fun c hc hcannounces =>
          absurd hcannounces (hsilent.2 c hc)

theorem mem_locators_foldl {tells : List Spdp} {v : View} {loc : Locator} :
    loc ∈ (tells.foldl augmentView v).locators ↔
      loc ∈ v.locators ∨ ∃ a ∈ tells, loc ∈ a.locatorsFound := by
  induction tells generalizing v with
  | nil => simp
  | cons b tells ih =>
      rw [List.foldl_cons, ih, List.exists_mem_cons_iff, ← or_assoc]
      show _ ∈ Keyed.addAll id v.locators b.locatorsFound ∨ _ ↔ _
      rw [Keyed.mem_addAll_id]

/-- The locators of a participant are all that were found. -/
theorem mem_locators_foldl_viewStep {tells : List Spdp} {v : View}
    (hv : tells.foldl viewStep none = some v) (loc : Locator) :
    loc ∈ v.locators ↔ ∃ a ∈ tells, loc ∈ a.locatorsFound := by
  cases tells with
  | nil => cases hv
  | cons b tells =>
      rw [foldl_viewStep_cons] at hv
      obtain rfl := Option.some.inj hv
      rw [mem_locators_foldl, List.exists_mem_cons_iff]
      show _ ∈ Keyed.addAll id [] b.locatorsFound ∨ _ ↔ _
      rw [Keyed.mem_addAll_id]
      simp

/-! ## Any order -/

/-- Two records show the same. -/
def SameRecord : Option View → Option View → Prop
  | none, none => True
  | some v, some v' =>
      v.mask = v'.mask ∧ v.flags = v'.flags ∧ v.lease = v'.lease ∧
        ∀ loc, loc ∈ v.locators ↔ loc ∈ v'.locators
  | _, _ => False

/-- The order of the packets does not matter to the record. -/
theorem sameRecord_of_perm {tells tells' : List Spdp} (hperm : tells'.Perm tells)
    (hconsistent : Consistent tells) (htaken : TakenBesideSilence tells) :
    SameRecord (tells.foldl viewStep none) (tells'.foldl viewStep none) := by
  have hmem : ∀ a, a ∈ tells' ↔ a ∈ tells := fun a => hperm.mem_iff
  have hconsistent' : Consistent tells' := fun a ha b hb =>
    hconsistent a ((hmem a).mp ha) b ((hmem b).mp hb)
  have htaken' : TakenBesideSilence tells' := fun ⟨b, hb, hsilent⟩ a ha =>
    htaken ⟨b, (hmem b).mp hb, hsilent⟩ a ((hmem a).mp ha)
  cases htells : tells with
  | nil =>
      rw [htells] at hperm
      rw [List.perm_nil.mp hperm]
      trivial
  | cons b rest =>
      have hne : tells' ≠ [] := by
        rintro rfl
        rw [htells, List.nil_perm] at hperm
        cases hperm
      obtain ⟨b', rest', htells'⟩ := List.exists_cons_of_ne_nil hne
      have hv := foldl_viewStep_cons b rest
      have hv' := foldl_viewStep_cons b' rest'
      rw [← htells] at hv ⊢
      rw [← htells'] at hv'
      have hcore := hasCore_foldl_viewStep hconsistent htaken hv
      have hcore' := hasCore_foldl_viewStep hconsistent' htaken' hv'
      have hlocators := mem_locators_foldl_viewStep hv
      have hlocators' := mem_locators_foldl_viewStep hv'
      have hsame : ∃ a, HasCore (rest.foldl augmentView (freshView b)) a ∧
          HasCore (rest'.foldl augmentView (freshView b')) a := by
        by_cases hannounced : ∃ a ∈ tells, a.Announces
        · obtain ⟨a, ha, hannounces⟩ := hannounced
          exact ⟨a, hcore.1 a ha hannounces, hcore'.1 a ((hmem a).mpr ha) hannounces⟩
        · have hsilent : ∀ a ∈ tells, ¬a.Announces := fun a ha hannounces =>
            hannounced ⟨a, ha, hannounces⟩
          exact ⟨Spdp.empty, hcore.2 hsilent,
            hcore'.2 fun a ha => hsilent a ((hmem a).mp ha)⟩
      obtain ⟨a, ha, ha'⟩ := hsame
      rw [hv, hv']
      refine ⟨ha.mask.trans ha'.mask.symm, ha.flags.trans ha'.flags.symm,
        ha.lease.trans ha'.lease.symm, fun loc => ?_⟩
      rw [hlocators, hlocators']
      simp only [hmem]

/-- Where no announcement has a flag, a mask does not come after a silent packet. -/
theorem mask_foldl {tells : List Spdp} (h : ∀ a ∈ tells, a.builtinEndpointsFlags.getD [] = [])
    (v : View) : (tells.foldl augmentView v).mask = v.mask := by
  induction tells generalizing v with
  | nil => rfl
  | cons a tells ih =>
      rw [List.forall_mem_cons] at h
      rw [List.foldl_cons, ih h.2]
      exact if_neg fun hboth => hboth.2 h.1

/-- Where every lease counts as none, none comes after a silent packet. -/
theorem lease_foldl {tells : List Spdp}
    (h : ∀ a ∈ tells, a.leaseDurationSec.filter PyFloat.truthy = none) (v : View) :
    (tells.foldl augmentView v).lease = v.lease := by
  induction tells generalizing v with
  | nil => rfl
  | cons a tells ih =>
      rw [List.forall_mem_cons] at h
      rw [List.foldl_cons, ih h.2]
      show (a.leaseDurationSec.filter PyFloat.truthy).getD v.lease = v.lease
      rw [h.1]
      rfl

/-- A record that starts with an announcement and one that starts with a silent
packet are the same only if the announcement is taken over. -/
theorem taken_of_sameRecord {a b : Spdp} {tells tells' : List Spdp}
    (hperm : (a :: tells).Perm (b :: tells')) (hconsistent : Consistent (a :: tells))
    (ha : a.Announces) (hb : ¬b.Announces)
    (hsame : SameRecord ((a :: tells).foldl viewStep none)
      ((b :: tells').foldl viewStep none)) : Taken a := by
  rw [foldl_viewStep_cons, foldl_viewStep_cons] at hsame
  obtain ⟨hmask, -, hlease, -⟩ := hsame
  obtain ⟨hnoMask, -, hnoLease, -⟩ := none_of_not_announces hb
  have hcore : HasCore (tells.foldl augmentView (freshView a)) a :=
    (hasCore_fresh a).foldl fun c hc hannounces =>
      hconsistent c (List.mem_cons_of_mem _ hc) a List.mem_cons_self hannounces ha
  -- every packet of the second run is silent or announces the same
  have hlike : ∀ c ∈ tells', ¬c.Announces ∨ SameNews c a := by
    intro c hc
    by_cases hannounces : c.Announces
    · exact .inr (hconsistent c (hperm.mem_iff.mpr (List.mem_cons_of_mem _ hc)) a
        List.mem_cons_self hannounces ha)
    · exact .inl hannounces
  constructor
  · by_contra hnot
    rw [not_or, not_not] at hnot
    have hflags : ∀ c ∈ tells', c.builtinEndpointsFlags.getD [] = [] := by
      intro c hc
      rcases hlike c hc with hsilent | hsame
      · rw [(none_of_not_announces hsilent).2.1]
        rfl
      · rw [hsame.flags]
        exact hnot.1
    rw [hcore.mask, mask_foldl hflags] at hmask
    refine hnot.2 (hmask.trans ?_)
    show b.builtinEndpointsMask.getD unknownMask = unknownMask
    rw [hnoMask]
    rfl
  · intro lease hsome
    by_contra hnot
    rw [Bool.not_eq_true] at hnot
    have hleases : ∀ c ∈ tells', c.leaseDurationSec.filter PyFloat.truthy = none := by
      intro c hc
      rcases hlike c hc with hsilent | hsame
      · rw [(none_of_not_announces hsilent).2.2.1]
        rfl
      · rw [hsame.lease, hsome]
        simp [Option.filter, hnot]
    have hdefault : (freshView b).lease = defaultLease := by
      show b.leaseDurationSec.getD defaultLease = defaultLease
      rw [hnoLease]
      rfl
    rw [hcore.lease, lease_foldl hleases, hdefault, hsome, Option.getD_some] at hlease
    rw [hlease] at hnot
    cases hnot

/-! ## Any order of the packets -/

variable (py)

/-- What the packets tell of a participant. -/
def tells (rawPackets : List Json) (guid : List Char) : List Spdp :=
  rawPackets.filterMap (tellsOf py guid)

/-- In every order the same is recorded of every participant, and the test of the
builtin endpoints has the same verdict. -/
def OrderFree (rawPackets : List Json) : Prop :=
  ∀ rawPackets', rawPackets'.Perm rawPackets →
    ∀ summary, parseDiscoveryData py rawPackets = .ok summary →
      ∃ summary', parseDiscoveryData py rawPackets' = .ok summary' ∧
        (∀ guid, SameRecord ((summary.participants.get? guid).map Participant.view)
          ((summary'.participants.get? guid).map Participant.view)) ∧
        (builtinTestCase summary.participants).failure.isSome =
          (builtinTestCase summary'.participants).failure.isSome

theorem view_parseDiscoveryData {rawPackets : List Json} {summary : Summary}
    (h : parseDiscoveryData py rawPackets = .ok summary) (guid : List Char) :
    (summary.participants.get? guid).map Participant.view =
      (tells py rawPackets guid).foldl viewStep none :=
  view_parsePackets (parseDiscoveryData_eq_ok_iff.mp h).1 guid

/-- The verdict looks at the masks alone. -/
theorem failure_of_sameRecord {participants participants' : PyDict (List Char) Participant}
    (h : ∀ guid, SameRecord ((participants.get? guid).map Participant.view)
      ((participants'.get? guid).map Participant.view))
    (hfailed : (builtinTestCase participants).failure.isSome = true) :
    (builtinTestCase participants').failure.isSome = true := by
  obtain ⟨guid, part, hget, hmask⟩ := (builtinTestCase_failed_iff participants).mp hfailed
  have hsame := h guid
  rw [hget] at hsame
  cases hget' : participants'.get? guid with
  | none =>
      rw [hget'] at hsame
      cases hsame
  | some part' =>
      rw [hget'] at hsame
      refine (builtinTestCase_failed_iff participants').mpr ⟨guid, part', hget', ?_⟩
      exact hsame.1.symm.trans hmask

theorem SameRecord.symm {v v' : Option View} (h : SameRecord v v') : SameRecord v' v := by
  cases v with
  | none => cases v' <;> exact h
  | some v =>
      cases v' with
      | none => exact h
      | some v' =>
          exact ⟨h.1.symm, h.2.1.symm, h.2.2.1.symm, fun loc => (h.2.2.2 loc).symm⟩

theorem SameRecord.trans {u v w : Option View} (huv : SameRecord u v) (hvw : SameRecord v w) :
    SameRecord u w := by
  cases v with
  | none =>
      cases u with
      | none => exact hvw
      | some u => cases huv
  | some v =>
      cases u with
      | none => cases huv
      | some u =>
          cases w with
          | none => cases hvw
          | some w =>
              exact ⟨huv.1.trans hvw.1, huv.2.1.trans hvw.2.1, huv.2.2.1.trans hvw.2.2.1,
                fun loc => (huv.2.2.2 loc).trans (hvw.2.2.2 loc)⟩

/-- Packets of which those of a participant that announce something announce the
same are read alike in every order, exactly if one of them cannot be read, or no
participant has a silent packet beside an announcement that is not taken over. -/
theorem orderFree_iff {rawPackets : List Json}
    (hconsistent : ∀ guid, Consistent (tells py rawPackets guid)) :
    OrderFree py rawPackets ↔
      (∃ pkt ∈ rawPackets, ¬PacketReadable py pkt) ∨
        ∀ guid, TakenBesideSilence (tells py rawPackets guid) := by
  constructor
  · intro hfree
    by_cases hreadable : ∀ pkt ∈ rawPackets, PacketReadable py pkt
    · refine .inr fun guid ⟨b, hb, hsilent⟩ a ha hannounces => ?_
      obtain ⟨store, hstore⟩ := (parsePackets_ok_iff py rawPackets).mpr hreadable
      have hsummary : parseDiscoveryData py rawPackets =
          .ok { store with totalRtpsPackets := rawPackets.length } :=
        parseDiscoveryData_eq_ok_iff.mpr ⟨hstore, rfl⟩
      -- the packet of an announcement, or a silent one, may come first
      have hfirst : ∀ c ∈ tells py rawPackets guid, ∃ rest,
          (c :: rest).Perm (tells py rawPackets guid) ∧
            SameRecord ((tells py rawPackets guid).foldl viewStep none)
              ((c :: rest).foldl viewStep none) := by
        intro c hc
        obtain ⟨pkt, hpkt, htells⟩ := List.mem_filterMap.mp hc
        obtain ⟨l, r, hsplit⟩ := List.append_of_mem hpkt
        have hperm : (pkt :: (l ++ r)).Perm rawPackets := by
          rw [hsplit]
          exact List.perm_middle.symm
        obtain ⟨summary', hsummary', hsame, -⟩ := hfree _ hperm _ hsummary
        have hsame := hsame guid
        rw [view_parseDiscoveryData py hsummary, view_parseDiscoveryData py hsummary'] at hsame
        have hcons : tells py (pkt :: (l ++ r)) guid = c :: tells py (l ++ r) guid :=
          List.filterMap_cons_some htells
        rw [hcons] at hsame
        refine ⟨tells py (l ++ r) guid, ?_, hsame⟩
        rw [← hcons]
        exact hperm.filterMap _
      obtain ⟨rest, hperm, hsame⟩ := hfirst a ha
      obtain ⟨rest', hperm', hsame'⟩ := hfirst b hb
      refine taken_of_sameRecord (hperm.trans hperm'.symm) ?_ hannounces hsilent
        (hsame.symm.trans hsame')
      intro c hc d hd
      exact hconsistent guid c (hperm.mem_iff.mp hc) d (hperm.mem_iff.mp hd)
    · obtain ⟨pkt, hpkt⟩ := not_forall.mp hreadable
      exact .inl ⟨pkt, Classical.not_imp.mp hpkt⟩
  · intro hcond rawPackets' hperm summary hsummary
    have hreadable := (parsePackets_ok_iff py rawPackets).mp
      ⟨_, (parseDiscoveryData_eq_ok_iff.mp hsummary).1⟩
    have htaken := hcond.resolve_left fun ⟨pkt, hpkt, hnot⟩ => hnot (hreadable pkt hpkt)
    obtain ⟨store', hstore'⟩ := (parsePackets_ok_iff py rawPackets').mpr fun pkt hpkt =>
      hreadable pkt (hperm.mem_iff.mp hpkt)
    have hsummary' : parseDiscoveryData py rawPackets' =
        .ok { store' with totalRtpsPackets := rawPackets'.length } :=
      parseDiscoveryData_eq_ok_iff.mpr ⟨hstore', rfl⟩
    have hsame : ∀ guid, SameRecord ((summary.participants.get? guid).map Participant.view)
        ((store'.participants.get? guid).map Participant.view) := by
      intro guid
      rw [view_parseDiscoveryData py hsummary, view_parsePackets hstore']
      exact sameRecord_of_perm (hperm.filterMap _) (hconsistent guid) (htaken guid)
    refine ⟨_, hsummary', hsame, ?_⟩
    rw [Bool.eq_iff_iff]
    exact ⟨failure_of_sameRecord hsame, failure_of_sameRecord fun guid => (hsame guid).symm⟩

/-! ## Two packets of a participant -/

instance (spdp : Spdp) : Decidable spdp.Announces := by
  unfold Spdp.Announces
  infer_instance

/-- What holds of the walk over each packet holds of what is told. -/
theorem forall_mem_tells {rawPackets : List Json} {P : Spdp → Prop}
    (h : ∀ pkt ∈ rawPackets, ∀ news ∈ (newsOf py pkt).toOption, P news.2) (guid : List Char) :
    ∀ a ∈ tells py rawPackets guid, P a := by
  intro a ha
  obtain ⟨pkt, hpkt, htells⟩ := List.mem_filterMap.mp ha
  unfold tellsOf at htells
  split at htells
  · rename_i header spdp hnews
    split at htells
    · obtain rfl := Option.some.inj htells
      exact h pkt hpkt (header, spdp) (by rw [hnews]; rfl)
    · cases htells
  · cases htells

/-- A packet of the user's data. -/
def dataPacket : Json :=
  .obj [("_source".toList, .obj [("layers".toList, .obj [("rtps".toList, .obj
    [("rtps.guidPrefix".toList, .str "010f45d27c3a000001000000".toList)])])])]

/-- A packet that announces a mask. -/
def spdpPacket (mask : String) : Json :=
  .obj [("_source".toList, .obj [("layers".toList, .obj [("rtps".toList, .obj
    [("rtps.guidPrefix".toList, .str "010f45d27c3a000001000000".toList),
     ("rtps.param.builtin_endpoint_set".toList, .str mask.toList)])])])]

/-- With one packet beside the user's data there is one announcement. -/
theorem consistent_dataPacket (mask : String) (guid : List Char) :
    Consistent (tells .ascii [dataPacket, spdpPacket mask] guid) := by
  have hsilent : ∀ a ∈ tells .ascii [dataPacket] guid, ¬a.Announces :=
    forall_mem_tells .ascii (List.forall_mem_singleton.mpr (by decide +kernel)) guid
  have hone : ∀ a ∈ tells .ascii [dataPacket, spdpPacket mask] guid, a.Announces →
      tellsOf .ascii guid (spdpPacket mask) = some a := by
    intro a ha hannounces
    obtain ⟨pkt, hpkt, htells⟩ := List.mem_filterMap.mp ha
    rcases List.mem_pair.mp hpkt with rfl | rfl
    · refine absurd hannounces (hsilent a ?_)
      exact List.mem_filterMap.mpr ⟨_, List.mem_singleton_self _, htells⟩
    · exact htells
  intro a ha b hb hannouncesA hannouncesB
  have hsame := (hone a ha hannouncesA).symm.trans (hone b hb hannouncesB)
  obtain rfl := Option.some.inj hsame
  exact ⟨rfl, rfl, rfl, fun _ => Iff.rfl⟩

theorem orderFree_iff_dataPacket : OrderFree .ascii [dataPacket, spdpPacket "0x0000003f"] := by
  refine (orderFree_iff .ascii (consistent_dataPacket "0x0000003f")).mpr (.inr fun guid _ => ?_)
  have htaken : ∀ a ∈ tells .ascii [dataPacket, spdpPacket "0x0000003f"] guid, a.Announces →
      a.builtinEndpointsFlags.getD [] ≠ [] ∧ a.leaseDurationSec = none :=
    forall_mem_tells .ascii (List.forall_mem_cons.mpr
      ⟨by decide +kernel, List.forall_mem_singleton.mpr (by decide +kernel)⟩) guid
  intro a ha hannounces
  refine ⟨.inl (htaken a ha hannounces).1, ?_⟩
  rw [(htaken a ha hannounces).2]
  exact nofun

/-- A mask without a bit is reported only where it comes before the user's data. -/
theorem emptyMask_afterData :
    (∀ guid, Consistent (tells .ascii [dataPacket, spdpPacket "0x00000000"] guid)) ∧
      ¬OrderFree .ascii [dataPacket, spdpPacket "0x00000000"] := by
  refine ⟨consistent_dataPacket "0x00000000", fun hfree => ?_⟩
  have hafter : (parseDiscoveryData .ascii [dataPacket, spdpPacket "0x00000000"]).toOption.map
      (fun summary => (builtinTestCase summary.participants).failure.isSome) = some false := by
    decide +kernel
  have hbefore : (parseDiscoveryData .ascii [spdpPacket "0x00000000", dataPacket]).toOption.map
      (fun summary => (builtinTestCase summary.participants).failure.isSome) = some true := by
    decide +kernel
  obtain ⟨summary, hsummary, hverdict⟩ := Option.map_eq_some_iff.mp hafter
  have hok := PyError.toOption_eq_some_iff.mp hsummary
  obtain ⟨summary', hok', -, hsame⟩ := hfree _ (List.Perm.swap _ _ _) summary hok
  rw [hok'] at hbefore
  have hfailed : (builtinTestCase summary'.participants).failure.isSome = true :=
    Option.some.inj hbefore
  rw [hverdict, hfailed] at hsame
  cases hsame

end DdsRtps.Discovery
