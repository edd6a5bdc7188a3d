import Mathlib.Data.List.Perm.Basic
import ProcessRuns.Proofs.Queue.Exclusive

/-! # The order of packages

A package is published when it enters the primary queue or the queue behind its process, and from there it is
dispatched or taken out by a removal. What happens to the packages is put down in a list, oldest first, and two
things are read off it: the packages of each process leave in the order in which they were published, though they pass
through two queues; and the primary queue holds the packages that have entered it and not left it since, in the order
in which they entered, so that each package that is dispatched is the one that has stood there longest. -/

namespace ProcessRuns

/-- How a package leaves the queues. -/
inductive Leaving where
  | dispatched
  | stripped
deriving DecidableEq

/-- What happens to the packages in the queues. -/
inductive Happening where
  /-- A request publishes its package on the primary queue. -/
  | queued (request : Nat) (p : Package)
  /-- A request publishes its package behind its process. -/
  | waited (request : Nat) (p : Package)
  /-- A package that waited enters the primary queue. -/
  | promoted (p : Package)
  | dispatched (p : Package)
  /-- A removal takes out the packages of a process. -/
  | stripped (pid : ProcessId) (packages : List Package)
deriving DecidableEq

namespace Happening

/-- The package that is published, with its request. -/
def published? : Happening → Option (Nat × Package)
  | queued i p | waited i p => some (i, p)
  | _ => none

/-- The package that was dispatched. -/
def dispatched? : Happening → Option Package
  | dispatched p => some p
  | _ => none

/-- The packages that leave the queues. -/
def leaving : Happening → List (Leaving × Package)
  | dispatched p => [(.dispatched, p)]
  | stripped _ packages => packages.map fun p => (.stripped, p)
  | _ => []

/-- The package that enters the primary queue. -/
def entering? : Happening → Option Package
  | queued _ p | promoted p => some p
  | _ => none

/-- The packages of the process that stand on the primary queue leave it. -/
def clears (pid : ProcessId) : Happening → Bool
  | dispatched p => p.processId = pid
  | stripped id _ => id = pid
  | _ => false

end Happening

/-! ## What a history tells -/

/-- The packages of a process that were published, in their order, with their requests. -/
def publications (pid : ProcessId) (h : List Happening) : List (Nat × Package) :=
  (h.filterMap Happening.published?).filter fun x => x.2.processId = pid

/-- The packages of a process that have left the queues, in their order. -/
def departures (pid : ProcessId) (h : List Happening) : List (Leaving × Package) :=
  (h.flatMap Happening.leaving).filter fun x => x.2.processId = pid

/-- The package entered the primary queue with what happened at `e`, and nothing has cleared its process since. -/
def Standing (h : List Happening) (e : Nat) (p : Package) : Prop :=
  (h[e]?).bind Happening.entering? = some p ∧ ∀ x ∈ h.drop (e + 1), x.clears p.processId = false

/-- What was dispatched at `d` is the package that entered the primary queue at `e`. -/
def DispatchOf (h : List Happening) (e d : Nat) : Prop :=
  ∃ p, h[d]? = some (.dispatched p) ∧ Standing (h.take d) e p

/-- Whatever is dispatched stands on the primary queue, and what else stands there has entered it later and is of
other processes. -/
def LongestFirst (h : List Happening) : Prop :=
  ∀ d p, h[d]? = some (.dispatched p) → ∃ e, Standing (h.take d) e p ∧
    ∀ e' p', Standing (h.take d) e' p' → e' ≠ e → e < e' ∧ p'.processId ≠ p.processId

section
variable {h h' : List Happening} {x : Happening} {pid : ProcessId} {p q : Package} {e e' d d' : Nat}

theorem publications_append : publications pid (h ++ h') = publications pid h ++ publications pid h' := by
  rw [publications, List.filterMap_append, List.filter_append, publications, publications]

theorem departures_append : departures pid (h ++ h') = departures pid h ++ departures pid h' := by
  rw [departures, List.flatMap_append, List.filter_append, departures, departures]

namespace Standing

theorem lt (hs : Standing h e p) : e < h.length := by
  obtain ⟨x, hx, -⟩ := Option.bind_eq_some_iff.mp hs.1
  exact (List.getElem?_eq_some_iff.mp hx).1

theorem package_eq (hp : Standing h e p) (hq : Standing h e q) : p = q :=
  Option.some.inj (hp.1.symm.trans hq.1)

/-- What stands on the queue has stood there ever since it entered. -/
theorem earlier (hs : Standing (h ++ h') e p) (he : e < h.length) : Standing h e p := by
  refine ⟨?_, fun x hx => hs.2 x ?_⟩
  · rw [← hs.1, List.getElem?_append_left he]
  · rw [List.drop_append_of_le_length he]
    exact List.mem_append_left _ hx

end Standing

theorem standing_concat : Standing (h ++ [x]) e p ↔
    (Standing h e p ∧ x.clears p.processId = false) ∨ (e = h.length ∧ x.entering? = some p) := by
  rcases Nat.lt_trichotomy e h.length with he | he | he
  · have hdrop : (h ++ [x]).drop (e + 1) = h.drop (e + 1) ++ [x] := List.drop_append_of_le_length he
    rw [Standing, Standing, hdrop, List.getElem?_append_left he, List.forall_mem_append, List.forall_mem_singleton,
      and_assoc]
    exact ⟨Or.inl, fun hcase => hcase.resolve_right fun hlast => Nat.ne_of_lt he hlast.1⟩
  · subst he
    rw [Standing, List.getElem?_concat_length, List.drop_of_length_le (by simp)]
    refine ⟨fun hnew => Or.inr ⟨rfl, hnew.1⟩, ?_⟩
    rintro (⟨hold, -⟩ | ⟨-, hnew⟩)
    · exact absurd hold.lt (Nat.lt_irrefl _)
    · exact ⟨hnew, fun _ hx => absurd hx List.not_mem_nil⟩
  · constructor
    · intro hs
      have hlt := hs.lt
      rw [List.length_append, List.length_singleton] at hlt
      omega
    · rintro (⟨hold, -⟩ | ⟨rfl, -⟩)
      · exact absurd hold.lt (by omega)
      · exact absurd he (Nat.lt_irrefl _)

namespace DispatchOf

theorem lt (hd : DispatchOf h e d) : e < d := by
  obtain ⟨p, -, hs⟩ := hd
  exact Nat.lt_of_lt_of_le hs.lt (List.length_take_le d h)

theorem unique (first : LongestFirst h) (hd : DispatchOf h e d) (hd' : DispatchOf h e' d) : e = e' := by
  obtain ⟨p, hp, hs⟩ := hd
  obtain ⟨p', hp', hs'⟩ := hd'
  obtain rfl : p = p' := by
    rw [hp, Option.some.injEq, Happening.dispatched.injEq] at hp'
    exact hp'
  obtain ⟨e₀, -, hothers⟩ := first d p hp
  have hsame : ∀ e, Standing (h.take d) e p → e = e₀ := fun e hs => by
    by_contra hne
    exact (hothers e p hs hne).2 rfl
  rw [hsame e hs, hsame e' hs']

theorem entered_earlier (first : LongestFirst h) (hd : DispatchOf h e d) (hd' : DispatchOf h e' d') (earlier : d < d') :
    e < e' := by
  rcases Nat.lt_or_ge e' d with he' | he'
  · obtain ⟨p', -, hs'⟩ := hd'
    obtain ⟨p, hp, hs⟩ := hd
    have hdlt := (List.getElem?_eq_some_iff.mp hp).1
    -- What was dispatched later stood on the queue already.
    have hthere : Standing (h.take d) e' p' := by
      have htake : h.take d' = h.take d ++ (h.drop d).take (d' - d) := by
        rw [← List.take_add, Nat.add_sub_cancel' (Nat.le_of_lt earlier)]
      rw [htake] at hs'
      exact hs'.earlier (by rw [List.length_take]; omega)
    have hne : e' ≠ e := by
      rintro rfl
      have hmem : Happening.dispatched p ∈ (h.take d').drop (e' + 1) := by
        refine List.mem_iff_getElem?.mpr ⟨d - (e' + 1), ?_⟩
        rw [List.getElem?_drop, List.getElem?_take_of_lt (by omega), ← hp]
        congr 1
        omega
      have hclears := hs'.2 _ hmem
      rw [hthere.package_eq hs, Happening.clears, decide_eq_false_iff_not] at hclears
      exact hclears rfl
    obtain ⟨e₀, hs₀, hothers⟩ := first d p hp
    obtain rfl := unique first ⟨p, hp, hs⟩ ⟨p, hp, hs₀⟩
    exact (hothers e' p' hthere hne).1
  · exact Nat.lt_of_lt_of_le hd.lt he'

/-- Packages are dispatched in the order in which they entered the primary queue. -/
theorem lt_iff (first : LongestFirst h) (hd : DispatchOf h e d) (hd' : DispatchOf h e' d') : d < d' ↔ e < e' := by
  refine ⟨hd.entered_earlier first hd', fun he => ?_⟩
  rcases Nat.lt_trichotomy d d' with hlt | rfl | hgt
  · exact hlt
  · exact absurd (hd.unique first hd') (Nat.ne_of_lt he)
  · exact absurd (hd'.entered_earlier first hd hgt) (Nat.lt_asymm he)

end DispatchOf

end

namespace Scheduler

variable {s t : Scheduler} {h : List Happening} {x : Option Happening} {p : Package} {pid : ProcessId}

/-! ## One step -/

/-- What may happen to the queues, and what of it happens to packages. -/
inductive Passes (s : Scheduler) : Option Happening → Scheduler → Prop
  | keep : Passes s none s
  | queued (request : Nat) {p : Package} (idle : s.isActive p.processId = false) :
    Passes s (some (.queued request p)) (s.enqueue p)
  | waited (request : Nat) {p : Package} (active : s.isActive p.processId = true) :
    Passes s (some (.waited request p)) (s.wait p)
  | dispatched {p : Package} {t : Scheduler} (popped : s.pop? = some (p, t)) : Passes s (some (.dispatched p)) t
  | promoted {pid : ProcessId} {p : Package} {rest : List Package} (next : s.waitQueue pid = p :: rest) :
    Passes s (some (.promoted p)) (s.finish pid).2
  | ended {pid : ProcessId} (nobody : s.waitQueue pid = []) : Passes s none (s.finish pid).2
  | stripped (pid : ProcessId) : Passes s (some (.stripped pid (s.remove pid).1)) (s.remove pid).2

theorem processId_of_mem_lineOf (tidy : s.Tidy) (hp : p ∈ s.lineOf pid) : p.processId = pid := by
  rcases List.mem_append.mp hp with hp | hp
  · exact of_decide_eq_true (List.mem_filter.mp hp).2
  · exact tidy.processId_of_mem hp

/-- What is published of a process goes to the end of its line, and what leaves goes from the front. -/
theorem Passes.line (hs : s.Passes x t) (tidy : s.Tidy) (pid : ProcessId) :
    s.lineOf pid ++ (publications pid x.toList).map Prod.snd =
      (departures pid x.toList).map Prod.snd ++ t.lineOf pid := by
  cases hs with
  | keep => simp [publications, departures]
  | @queued i p idle =>
    rw [lineOf_enqueue tidy idle]
    by_cases hp : p.processId = pid <;> simp [publications, departures, Happening.published?, Happening.leaving, hp]
  | @waited i p active =>
    rw [lineOf_wait]
    by_cases hp : p.processId = pid <;> simp [publications, departures, Happening.published?, Happening.leaving, hp]
  | @dispatched p t popped =>
    rw [lineOf_pop? popped]
    by_cases hp : p.processId = pid <;> simp [publications, departures, Happening.published?, Happening.leaving, hp]
  | @promoted id p rest next =>
    rw [lineOf_finish tidy]
    simp [publications, departures, Happening.published?, Happening.leaving]
  | @ended id nobody =>
    rw [lineOf_finish tidy]
    simp [publications, departures]
  | stripped id =>
    have hout : ((departures pid [.stripped id (s.remove id).1]).map Prod.snd) =
        (s.lineOf id).filter fun p => p.processId = pid := by
      simp [departures, Happening.leaving, remove_fst, List.filter_map, Function.comp_def]
    rw [Option.toList_some, hout, lineOf_remove]
    by_cases hid : id = pid
    · subst hid
      rw [List.filter_eq_self.mpr fun p hp => decide_eq_true (processId_of_mem_lineOf tidy hp)]
      simp [publications, Happening.published?]
    · rw [List.filter_eq_nil_iff.mpr fun p hp => by simp [processId_of_mem_lineOf tidy hp, hid], if_neg (Ne.symm hid)]
      simp [publications, Happening.published?]

/-- No other package of the process stands on the queue. -/
theorem others_of_popped (one : ∀ pid, s.queuedCount pid ≤ 1) (popped : s.pop? = some (p, t)) :
    ∀ q ∈ t.queued, q.processId ≠ p.processId := by
  have hone := one p.processId
  obtain ⟨hq, -, -, -⟩ := pop?_eq_some popped
  rw [queuedCount, hq, List.countP_cons_of_pos (by simp)] at hone
  have hzero : t.queued.countP (fun q => q.processId = p.processId) = 0 := by omega
  exact fun q hmem => by simpa using List.countP_eq_zero.mp hzero q hmem

/-- The primary queue loses the packages that what happened clears, and gets what has entered at its end. -/
theorem Passes.primary (hs : s.Passes x t) (one : ∀ pid, s.queuedCount pid ≤ 1) :
    t.queued = (s.queued.filter fun p => !x.any (·.clears p.processId)) ++ (x.bind (·.entering?)).toList := by
  cases hs with
  | keep => simp
  | queued | waited => simp [Happening.clears, Happening.entering?, enqueue, wait]
  | @dispatched p t popped =>
    obtain ⟨hq, -, -, -⟩ := pop?_eq_some popped
    have hothers := others_of_popped one popped
    rw [hq, List.filter_cons_of_neg (by simp [Happening.clears]), List.filter_eq_self.mpr fun q hmem => by
      simpa [Happening.clears] using Ne.symm (hothers q hmem)]
    simp [Happening.entering?]
  | @promoted id p rest next =>
    rcases finish_cases s id with ⟨q, rest', hq, -, hs⟩ | ⟨hnil, -, -⟩
    · obtain ⟨rfl, rfl⟩ := List.cons_eq_cons.mp (next.symm.trans hq)
      rw [hs]
      simp [Happening.clears, Happening.entering?]
    · rw [hnil] at next
      cases next
  | @ended id nobody =>
    rcases finish_cases s id with ⟨q, rest', hq, -, -⟩ | ⟨-, -, hs⟩
    · rw [nobody] at hq
      cases hq
    · rw [hs]
      simp
  | stripped id => simp [Happening.clears, Happening.entering?, remove, eq_comm]

/-! ## What the queues have to do with the history -/

/-- Of each process the packages published are those that have left, in the same order, and then those that are
there. -/
def InLine (h : List Happening) (s : Scheduler) : Prop :=
  ∀ pid, (publications pid h).map Prod.snd = (departures pid h).map Prod.snd ++ s.lineOf pid

/-- The primary queue holds what stands on it by the history, in the order in which it has entered. -/
def InOrder (h : List Happening) (s : Scheduler) : Prop :=
  ∃ entries : List (Nat × Package), entries.map Prod.snd = s.queued ∧ (entries.map Prod.fst).Pairwise (· < ·) ∧
    ∀ e p, (e, p) ∈ entries ↔ Standing h e p

theorem InLine.empty : InLine [] {} := fun _ => rfl

theorem InOrder.empty : InOrder [] {} := by
  refine ⟨[], rfl, List.Pairwise.nil, fun e p => ⟨fun hno => absurd hno List.not_mem_nil, fun hs => ?_⟩⟩
  exact absurd hs.lt (Nat.not_lt_zero e)

theorem InLine.passes (hl : InLine h s) (hs : s.Passes x t) (tidy : s.Tidy) : InLine (h ++ x.toList) t := by
  intro pid
  calc (publications pid (h ++ x.toList)).map Prod.snd
      = (departures pid h).map Prod.snd ++ (s.lineOf pid ++ (publications pid x.toList).map Prod.snd) := by
        rw [publications_append, List.map_append, hl pid, List.append_assoc]
    _ = (departures pid (h ++ x.toList)).map Prod.snd ++ t.lineOf pid := by
        rw [hs.line tidy pid, departures_append, List.map_append, List.append_assoc]

/-- The packages that have left are those that were published first, one for one. -/
theorem InLine.departed (hl : InLine h s) {k request : Nat} (published : (publications pid h)[k]? = some (request, p))
    (there : k < (departures pid h).length) : ∃ leaving, (departures pid h)[k]? = some (leaving, p) := by
  have hsame : ((publications pid h).map Prod.snd)[k]? = ((departures pid h).map Prod.snd)[k]? := by
    rw [hl pid, List.getElem?_append_left (by rwa [List.length_map])]
  rw [List.getElem?_map, List.getElem?_map, published, List.getElem?_eq_getElem there, Option.map_some, Option.map_some,
    Option.some.injEq] at hsame
  exact ⟨_, (List.getElem?_eq_getElem there).trans (congrArg some (Prod.ext rfl hsame.symm))⟩

theorem InOrder.passes (ho : InOrder h s) (hs : s.Passes x t) (one : ∀ pid, s.queuedCount pid ≤ 1) :
    InOrder (h ++ x.toList) t := by
  obtain ⟨entries, hmap, hsorted, hstanding⟩ := ho
  cases x with
  | none =>
    have hsame : t.queued = s.queued := by simpa using hs.primary one
    exact ⟨entries, hmap.trans hsame.symm, hsorted, by simpa using hstanding⟩
  | some x =>
    have hprimary : t.queued = (s.queued.filter fun p => !x.clears p.processId) ++ x.entering?.toList := hs.primary one
    have hbefore : ∀ e ∈ entries.map Prod.fst, e < h.length := fun e he => by
      obtain ⟨⟨e, p⟩, hep, rfl⟩ := List.mem_map.mp he
      exact ((hstanding e p).mp hep).lt
    have hstay : ((entries.filter fun y => !x.clears y.2.processId).map Prod.fst).Sublist (entries.map Prod.fst) :=
      List.filter_sublist.map Prod.fst
    refine ⟨(entries.filter fun y => !x.clears y.2.processId) ++ (x.entering?.map fun p => (h.length, p)).toList, ?_,
      ?_, ?_⟩
    · rw [hprimary, ← hmap, List.map_append, List.filter_map]
      cases x.entering? <;> rfl
    · rw [List.map_append]
      refine List.pairwise_append.mpr ⟨hsorted.sublist hstay, by cases x.entering? <;> simp, fun e he e' he' => ?_⟩
      have hlast : e' = h.length := by
        cases hx : x.entering? <;> rw [hx] at he' <;> simp at he'
        exact he'
      exact hlast ▸ hbefore e (hstay.subset he)
    · intro e p
      rw [Option.toList_some, standing_concat, List.mem_append, List.mem_filter, hstanding]
      refine or_congr (and_congr_right fun _ => by simp) ?_
      cases x.entering? <;> simp [and_comm, eq_comm]

theorem InOrder.first (ho : InOrder h s) (one : ∀ pid, s.queuedCount pid ≤ 1) (popped : s.pop? = some (p, t)) :
    ∃ e, Standing h e p ∧ ∀ e' p', Standing h e' p' → e' ≠ e → e < e' ∧ p'.processId ≠ p.processId := by
  obtain ⟨entries, hmap, hsorted, hstanding⟩ := ho
  obtain ⟨hq, -, -, -⟩ := pop?_eq_some popped
  have hothers := others_of_popped one popped
  rw [hq] at hmap
  obtain ⟨⟨e, p'⟩, rest, rfl, rfl, hrest⟩ := List.map_eq_cons_iff.mp hmap
  refine ⟨e, (hstanding e p').mp List.mem_cons_self, fun e' q hs hne => ?_⟩
  rcases List.mem_cons.mp ((hstanding e' q).mpr hs) with heq | hmem
  · exact absurd (Prod.mk.inj heq).1 hne
  · rw [List.map_cons, List.pairwise_cons] at hsorted
    exact ⟨hsorted.1 e' (List.mem_map_of_mem hmem), hothers q (hrest ▸ List.mem_map_of_mem hmem)⟩

theorem Passes.longestFirst (hs : s.Passes x t) (ho : InOrder h s) (one : ∀ pid, s.queuedCount pid ≤ 1)
    (first : LongestFirst h) : LongestFirst (h ++ x.toList) := by
  intro d p hd
  rcases Nat.lt_or_ge d h.length with hlt | hge
  · rw [List.getElem?_append_left hlt] at hd
    rw [List.take_append_of_le_length (Nat.le_of_lt hlt)]
    exact first d p hd
  · -- It is the last that has happened.
    rw [List.getElem?_append_right hge] at hd
    cases x with
    | none => cases hd
    | some x =>
      obtain ⟨hlast, hx⟩ := List.getElem?_eq_some_iff.mp hd
      have hzero : d = h.length := by
        have hone : d - h.length < 1 := hlast
        omega
      obtain rfl : x = .dispatched p := by simpa using hx
      rw [hzero, List.take_left']
      · cases hs with
        | dispatched popped => exact ho.first one popped
      · rfl

end Scheduler

end ProcessRuns
