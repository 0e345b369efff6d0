/-
# `DdsRtps.Lib.Gate` — a feed in which an item can close its topic

Items come one after another; each tells something about its topic, and some
items close it, after which the others on the topic are not heard.  What is
heard in a run depends on the order of the items.  It does not, exactly if on
every topic that is closed at all the closing items say the same and the others
say nothing (`forall_perm_run_iff`).
-/
import Mathlib.Data.List.Basic
import Mathlib.Data.List.Perm.Basic

namespace Gate

variable {ι κ β : Type*} [DecidableEq κ]

/-- What is heard of the items, after some topics are closed. -/
def run (topic : ι → κ) (tell : ι → List β) (closes : ι → Bool) : List κ → List ι → List β
  | _, [] => []
  | closed, e :: es =>
      (if topic e ∈ closed then [] else tell e) ++
        run topic tell closes (if closes e then topic e :: closed else closed) es

variable {topic : ι → κ} {tell : ι → List β} {closes : ι → Bool} {about : β → κ}

/-- What is heard on a topic that is closed. -/
theorem filter_run_of_closed (habout : ∀ e, ∀ b ∈ tell e, about b = topic e) {t : κ}
    {closed : List κ} (ht : t ∈ closed) (es : List ι) :
    (run topic tell closes closed es).filter (about · = t) = [] := by
  induction es generalizing closed with
  | nil => rfl
  | cons e es ih =>
      have hrest : t ∈ (if closes e then topic e :: closed else closed) := by
        split
        · exact List.mem_cons_of_mem _ ht
        · exact ht
      rw [run, List.filter_append, ih hrest, List.append_nil]
      split
      · rfl
      · rename_i hopen
        rw [List.filter_eq_nil_iff]
        intro b hb hsame
        rw [decide_eq_true_eq, habout e b hb] at hsame
        exact hopen (hsame ▸ ht)

theorem filter_tell (habout : ∀ e, ∀ b ∈ tell e, about b = topic e) (e : ι) (t : κ) :
    (tell e).filter (about · = t) = if topic e = t then tell e else [] := by
  split
  · rename_i hsame
    rw [List.filter_eq_self]
    intro b hb
    rw [decide_eq_true_eq, habout e b hb, hsame]
  · rename_i hother
    rw [List.filter_eq_nil_iff]
    intro b hb hsame
    rw [decide_eq_true_eq, habout e b hb] at hsame
    exact hother hsame

/-- What is heard on an open topic, of one item and then the others. -/
theorem filter_run_cons (habout : ∀ e, ∀ b ∈ tell e, about b = topic e) {t : κ}
    {closed : List κ} (ht : t ∉ closed) (e : ι) (es : List ι) :
    (run topic tell closes closed (e :: es)).filter (about · = t) =
      if topic e = t then
        tell e ++
          (if closes e then []
          else (run topic tell closes closed es).filter (about · = t))
      else
        (run topic tell closes (if closes e then topic e :: closed else closed) es).filter
          (about · = t) := by
  rw [run, List.filter_append]
  by_cases hsame : topic e = t
  · rw [if_pos hsame, if_neg (hsame ▸ ht), filter_tell habout, if_pos hsame]
    congr 1
    split
    · exact filter_run_of_closed habout (hsame ▸ List.mem_cons_self) es
    · rfl
  · rw [if_neg hsame]
    split
    · rfl
    · rw [filter_tell habout, if_neg hsame, List.nil_append]

/-- On a topic that no item closes, all are heard. -/
theorem filter_run_of_open (habout : ∀ e, ∀ b ∈ tell e, about b = topic e) {t : κ}
    {closed : List κ} (ht : t ∉ closed) {es : List ι}
    (hes : ∀ e ∈ es, topic e = t → closes e = false) :
    (run topic tell closes closed es).filter (about · = t) =
      es.flatMap fun e => if topic e = t then tell e else [] := by
  induction es generalizing closed with
  | nil => rfl
  | cons e es ih =>
      rw [List.forall_mem_cons] at hes
      rw [filter_run_cons habout ht, List.flatMap_cons]
      split
      · rename_i hsame
        rw [hes.1 hsame, if_neg Bool.false_ne_true, ih ht hes.2]
      · rename_i hother
        refine ih ?_ hes.2
        split
        · rw [List.mem_cons, not_or]
          exact ⟨Ne.symm hother, ht⟩
        · exact ht

/-- On a topic where the closing items say the same and the others nothing, that is
what is heard. -/
theorem filter_run_of_agree (habout : ∀ e, ∀ b ∈ tell e, about b = topic e) {t : κ} {c : List β}
    {closed : List κ} (ht : t ∉ closed) {es : List ι}
    (hes : ∀ e ∈ es, topic e = t →
      (closes e = true → (tell e).Perm c) ∧ (closes e = false → tell e = []))
    (hsome : ∃ e ∈ es, topic e = t ∧ closes e = true) :
    ((run topic tell closes closed es).filter (about · = t)).Perm c := by
  induction es generalizing closed with
  | nil => simp at hsome
  | cons e es ih =>
      rw [List.forall_mem_cons] at hes
      rw [filter_run_cons habout ht]
      by_cases hsame : topic e = t
      · rw [if_pos hsame]
        cases hcloses : closes e with
        | true =>
            rw [if_pos rfl, List.append_nil]
            exact (hes.1 hsame).1 hcloses
        | false =>
            rw [if_neg Bool.false_ne_true, (hes.1 hsame).2 hcloses, List.nil_append]
            refine ih ht hes.2 ?_
            obtain ⟨f, hf, hfsame, hfcloses⟩ := hsome
            rcases List.mem_cons.mp hf with rfl | hf
            · rw [hcloses] at hfcloses
              cases hfcloses
            · exact ⟨f, hf, hfsame, hfcloses⟩
      · rw [if_neg hsame]
        refine ih ?_ hes.2 ?_
        · split
          · rw [List.mem_cons, not_or]
            exact ⟨Ne.symm hsame, ht⟩
          · exact ht
        · obtain ⟨f, hf, hfsame, hfcloses⟩ := hsome
          rcases List.mem_cons.mp hf with rfl | hf
          · exact absurd hfsame hsame
          · exact ⟨f, hf, hfsame, hfcloses⟩

/-- It matters only which topics are closed. -/
theorem run_congr {closed closed' : List κ} (h : ∀ t, t ∈ closed ↔ t ∈ closed') (es : List ι) :
    run topic tell closes closed es = run topic tell closes closed' es := by
  induction es generalizing closed closed' with
  | nil => rfl
  | cons e es ih =>
      have hrest : ∀ t, t ∈ (if closes e then topic e :: closed else closed) ↔
          t ∈ (if closes e then topic e :: closed' else closed') := by
        intro t
        split
        · rw [List.mem_cons, List.mem_cons, h]
        · exact h t
      rw [run, run, ih hrest]
      simp only [h]

variable [DecidableEq β]

/-- Two lists are a permutation of each other if they are on every topic. -/
theorem perm_of_forall_filter (about : β → κ) {l l' : List β}
    (h : ∀ t, (l.filter (about · = t)).Perm (l'.filter (about · = t))) : l.Perm l' := by
  rw [List.perm_iff_count]
  intro b
  have hcount := (h (about b)).count_eq b
  rwa [List.count_filter (by simp), List.count_filter (by simp)] at hcount

/-- The topics that are closed at all are closed by items that say the same, and
nothing else is said on them. -/
def Agree (topic : ι → κ) (tell : ι → List β) (closes : ι → Bool) (closed : List κ)
    (es : List ι) : Prop :=
  ∀ f ∈ es, closes f = true → topic f ∉ closed → ∀ g ∈ es, topic g = topic f →
    (closes g = true → (tell g).Perm (tell f)) ∧ (closes g = false → tell g = [])

/-- What is heard does not depend on the order of the items, exactly if they
agree. -/
theorem forall_perm_run_iff (habout : ∀ e, ∀ b ∈ tell e, about b = topic e) (closed : List κ)
    (es : List ι) :
    (∀ es', es'.Perm es →
        (run topic tell closes closed es').Perm (run topic tell closes closed es)) ↔
      Agree topic tell closes closed es := by
  constructor
  · intro h f hf hcloses hopen g hg hsame
    obtain ⟨l, r, hsplit⟩ := List.append_of_mem hf
    have hfirst : (f :: (l ++ r)).Perm es := by
      rw [hsplit]
      exact List.perm_middle.symm
    have hrunf := (h _ hfirst).filter (about · = topic f)
    rw [filter_run_cons habout hopen, if_pos rfl, if_pos hcloses, List.append_nil] at hrunf
    constructor
    · intro hgcloses
      obtain ⟨l', r', hsplit'⟩ := List.append_of_mem hg
      have hfirst' : (g :: (l' ++ r')).Perm es := by
        rw [hsplit']
        exact List.perm_middle.symm
      have hrung := (h _ hfirst').filter (about · = topic f)
      rw [filter_run_cons habout hopen, if_pos hsame, if_pos hgcloses, List.append_nil] at hrung
      exact hrung.trans hrunf.symm
    · intro hgopen
      have hrest : g ∈ l ++ r := by
        rcases List.mem_cons.mp (hfirst.mem_iff.mpr hg) with rfl | hmem
        · rw [hcloses] at hgopen
          cases hgopen
        · exact hmem
      obtain ⟨l', r', hsplit'⟩ := List.append_of_mem hrest
      have hsecond : (g :: f :: (l' ++ r')).Perm es := by
        refine List.Perm.trans (List.Perm.swap f g _) (List.Perm.trans ?_ hfirst)
        rw [hsplit']
        exact List.perm_middle.symm.cons f
      have hrung := (h _ hsecond).filter (about · = topic f)
      rw [filter_run_cons habout hopen, if_pos hsame, hgopen, if_neg Bool.false_ne_true,
        filter_run_cons habout hopen, if_pos rfl, if_pos hcloses, List.append_nil] at hrung
      have hlen := (hrung.trans hrunf.symm).length_eq
      rw [List.length_append] at hlen
      exact List.length_eq_zero_iff.mp (by omega)
  · intro h es' hperm
    refine perm_of_forall_filter about fun t => ?_
    by_cases hclosed : t ∈ closed
    · rw [filter_run_of_closed habout hclosed, filter_run_of_closed habout hclosed]
    · by_cases hsome : ∃ f ∈ es, topic f = t ∧ closes f = true
      · obtain ⟨f, hf, rfl, hcloses⟩ := hsome
        have hagree := h f hf hcloses hclosed
        have hrun := filter_run_of_agree habout hclosed hagree ⟨f, hf, rfl, hcloses⟩
        have hrun' := filter_run_of_agree habout hclosed
          (fun e he => hagree e (hperm.mem_iff.mp he)) ⟨f, hperm.mem_iff.mpr hf, rfl, hcloses⟩
        exact hrun'.trans hrun.symm
      · have hopen : ∀ e ∈ es, topic e = t → closes e = false := by
          intro e he hsame
          by_contra hcloses
          exact hsome ⟨e, he, hsame, by simpa using hcloses⟩
        rw [filter_run_of_open habout hclosed hopen,
          filter_run_of_open habout hclosed fun e he => hopen e (hperm.mem_iff.mp he)]
        exact hperm.flatMap_right _

end Gate
