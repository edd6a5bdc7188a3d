import Mathlib.Data.List.Sort
import ProcessRuns.Proofs.Log.Calls
import ProcessRuns.Proofs.Log.Operations

/-! # Pages of a log

A page holds the registers of a process at some positions, counted from the newest one, and each register with its own
messages. The positions may be given in either order and may lie beyond the oldest register. -/

namespace ProcessRuns

/-! ### Lists -/

theorem insertionSort_newest {α : Type} (key : α → Nat) {l : List α} (h : l.Pairwise fun a b => key a < key b) :
    l.insertionSort (fun a b => key b ≤ key a) = l.reverse := by
  have : Std.Total fun a b => key b ≤ key a := ⟨fun a b => Nat.le_total (key b) (key a)⟩
  have : IsTrans α fun a b => key b ≤ key a := ⟨fun _ _ _ hab hbc => hbc.trans hab⟩
  have hperm : (l.insertionSort fun a b => key b ≤ key a).Perm l := List.perm_insertionSort _ l
  have hnodup : (l.map key).Nodup := List.pairwise_map.mpr (h.imp Nat.ne_of_lt)
  refine (hperm.trans l.reverse_perm.symm).eq_of_pairwise (fun a b ha hb hba hab => ?_)
    (List.pairwise_insertionSort _ l) (List.pairwise_reverse.mpr (h.imp Nat.le_of_lt))
  exact List.inj_on_of_nodup_map hnodup (hperm.mem_iff.mp ha) (List.mem_reverse.mp hb) (Nat.le_antisymm hab hba)

theorem ascending {α : Type} {key : α → Nat} {l : List α} {n : Nat} (h : l.map key = List.range' 1 n) :
    l.Pairwise fun a b => key a < key b := by
  have hkeys : (l.map key).Pairwise (· < ·) := h ▸ List.pairwise_lt_range' 1
  exact List.pairwise_map.mp hkeys

/-- What a list holds at the positions from one to another, of which either may be the lower one. -/
def between {α : Type} (l : List α) (a b : Nat) : List α :=
  (List.range' (min a b) (max a b - min a b + 1)).filterMap fun i => l[i]?

theorem between_comm {α : Type} (l : List α) (a b : Nat) : between l a b = between l b a := by
  rw [between, between, min_comm, max_comm]

/-- What stands between two positions, and from the next one on to a third, stands between the first and the third. -/
theorem between_append {α : Type} (l : List α) {a b c : Nat} (hab : a ≤ b) (hbc : b < c) :
    between l a b ++ between l (b + 1) c = between l a c := by
  have hnext : b + 1 ≤ c := hbc
  have hac : a ≤ c := hab.trans hbc.le
  simp only [between, min_eq_left hab, max_eq_right hab, min_eq_left hnext, max_eq_right hnext, min_eq_left hac,
    max_eq_right hac]
  rw [← List.filterMap_append]
  obtain ⟨first, rfl⟩ := Nat.exists_eq_add_of_le hab
  obtain ⟨second, rfl⟩ := Nat.exists_eq_add_of_le hnext
  have hfirst : a + first - a + 1 = first + 1 := by omega
  have hsecond : a + first + 1 + second - (a + first + 1) + 1 = second + 1 := by omega
  have hall : a + first + 1 + second - a + 1 = (first + 1) + (second + 1) := by omega
  rw [hfirst, hsecond, hall, Nat.add_assoc a, List.range'_append_1]

theorem take_drop_eq {α : Type} (l : List α) (start count : Nat) :
    (l.drop start).take count = (List.range' start count).filterMap fun i => l[i]? := by
  induction count with
  | zero => rfl
  | succ count ih =>
    rw [List.take_add_one, ih, List.range'_1_concat, List.filterMap_append, List.getElem?_drop]
    cases h : l[start + count]? <;> simp [h]

theorem between_sublist {α : Type} (l : List α) (a b : Nat) : (between l a b).Sublist l := by
  rw [between, ← take_drop_eq]
  exact (List.take_sublist _ _).trans (List.drop_sublist _ _)

/-! ### Registers and their messages -/

/-- The messages of some registers together are those that name one of them, each of them once. -/
theorem flatMap_filter_perm {ids : List RegisterId} (hids : ids.Nodup) (messages : List LogMessage) :
    (ids.flatMap fun id => messages.filter fun note => note.registerId = id).Perm
      (messages.filter fun note => note.registerId ∈ ids) := by
  induction ids with
  | nil => simp
  | cons id rest ih =>
    obtain ⟨hid, hrest⟩ := List.nodup_cons.mp hids
    have hown : (messages.filter fun note => note.registerId ∈ id :: rest).filter (fun note => note.registerId = id) =
        messages.filter fun note => note.registerId = id := by
      rw [List.filter_filter]
      exact List.filter_congr fun note _ => by by_cases h : note.registerId = id <;> simp [h]
    have hothers : (messages.filter fun note => note.registerId ∈ id :: rest).filter
      (fun note => !note.registerId = id) =
        messages.filter fun note => note.registerId ∈ rest := by
      rw [List.filter_filter]
      exact List.filter_congr fun note _ => by by_cases h : note.registerId = id <;> simp [h, hid]
    have hsplit := List.filter_append_perm (fun note : LogMessage => decide (note.registerId = id))
      (messages.filter fun note => note.registerId ∈ id :: rest)
    rw [hown, hothers] at hsplit
    rw [List.flatMap_cons]
    exact ((ih hrest).append_left _).trans hsplit

namespace Logger

/-- Each of some registers with different numbers gets the messages that name it. -/
theorem attach_eq {registers : List Register} (hids : (registers.map (·.id)).Nodup) (messages : List LogMessage) :
    attach registers messages = registers.map fun r => ⟨r, messages.filter fun note => note.registerId = r.id⟩ := by
  induction registers generalizing messages with
  | nil => rfl
  | cons r rest ih =>
    rw [List.map_cons, List.nodup_cons] at hids
    rw [attach, List.partition_eq_filter_filter, List.map_cons]
    simp only [ih hids.2, List.cons.injEq, true_and]
    refine List.map_congr_left fun q hq => ?_
    have hne : q.id ≠ r.id := fun h => hids.1 (h ▸ List.mem_map_of_mem hq)
    rw [List.filter_filter]
    refine congrArg _ (List.filter_congr fun note _ => ?_)
    by_cases hq : note.registerId = q.id <;> simp [hq, hne]

end Logger

namespace MemoryTable

variable {t : MemoryTable} {pid : ProcessId}

/-- All registers of a process by their numbers, the newest one first. -/
def newestFirst (t : MemoryTable) (pid : ProcessId) : List Register :=
  (t.registers.filter fun r => r.processId = pid).insertionSort fun a b => b.id ≤ a.id

theorem Numbered.length (hids : t.Numbered) : t.registers.length = t.lastRegister := by
  rw [← List.length_map (fun r : Register => r.id), hids, List.length_range']

/-- The messages of a register are found among those of any registers that it is one of. -/
theorem filter_messagesOf (t : MemoryTable) {ids : List RegisterId} {id : RegisterId} (hid : id ∈ ids) :
    (t.messagesOf ids).filter (fun note => note.registerId = id) =
      t.messages.filter fun note => note.registerId = id := by
  rw [messagesOf, List.filter_filter]
  exact List.filter_congr fun note _ => by by_cases h : note.registerId = id <;> simp [h, hid]

theorem newestFirst_eq (hids : t.Numbered) (pid : ProcessId) : t.newestFirst pid = (t.ofProcess pid).reverse :=
  insertionSort_newest Register.id ((ascending hids).filter _)

theorem mem_newestFirst {r : Register} : r ∈ t.newestFirst pid ↔ r ∈ t.registers ∧ r.processId = pid := by
  rw [newestFirst, List.mem_insertionSort, List.mem_filter, decide_eq_true_eq]

theorem newestFirst_descending (hids : t.Numbered) (pid : ProcessId) :
    (t.newestFirst pid).Pairwise fun a b => b.id < a.id := by
  rw [newestFirst_eq hids]
  exact List.pairwise_reverse.mpr ((ascending hids).filter _)

/-- A page is as long as its positions say, as long as the registers can be numbered by 64 bits. -/
theorem page_eq_between (hids : t.Numbered) (hmax : t.lastRegister ≤ Logger.limitMax) (pid : ProcessId) (a b : Nat) :
    t.page pid (min a b) (min (max a b - min a b + 1) Logger.limitMax) = between (t.newestFirst pid) a b := by
  have hlength : (t.newestFirst pid).length ≤ Logger.limitMax := by
    rw [newestFirst, List.length_insertionSort]
    exact (List.length_filter_le _ _).trans (hids.length.trans_le hmax)
  rw [page, ← newestFirst_eq hids, between, ← take_drop_eq]
  rcases Nat.le_total (max a b - min a b + 1) Logger.limitMax with hle | hle
  · rw [Nat.min_eq_left hle]
  · rw [Nat.min_eq_right hle, List.take_of_length_le, List.take_of_length_le] <;> rw [List.length_drop] <;> omega

end MemoryTable

/-! ### How a log looks up a page -/

namespace Logger

variable {σ : Type} [Storage σ] {table : LogTable} {pid : ProcessId} {a b : Nat} {s s₁ : σ}

/-- The registers of a page between two positions. -/
def pageOf (table : LogTable) (pid : ProcessId) (a b : Nat) : Action σ (List Register) :=
  Storage.registers table pid (min a b) (min (max a b - min a b + 1) limitMax)

theorem logs_of_page {registers : List Register} (h : pageOf table pid a b s = (.ok registers, s₁)) :
    logs ⟨some table⟩ pid a b s = ((Storage.messages table (registers.map (·.id)) s₁).1.map (attach registers),
      (Storage.messages table (registers.map (·.id)) s₁).2) := by
  show (pageOf table pid a b >>= fun registers =>
    attach registers <$> Storage.messages table (registers.map (·.id))) s = _
  rw [Action.bind_apply, h]
  exact Action.map_apply ..

theorem logs_of_no_page {e : Failure} (h : pageOf table pid a b s = (.error e, s₁)) :
    logs ⟨some table⟩ pid a b s = (.error e, s₁) := by
  show (pageOf table pid a b >>= fun registers =>
    attach registers <$> Storage.messages table (registers.map (·.id))) s = _
  rw [Action.bind_apply, h]

end Logger

namespace Memory

theorem logs_eq {m : Memory} {table : LogTable} {t : MemoryTable} (ht : m.tables.get? table = some t) (pid : ProcessId)
    (a b : Nat) :
    let registers := t.page pid (min a b) (min (max a b - min a b + 1) Logger.limitMax)
    Logger.logs ⟨some table⟩ pid a b m =
      (.ok (Logger.attach registers (t.messagesOf (registers.map (·.id)))), m) := by
  have hquery : ∀ {α : Type} (f : MemoryTable → α), query table f m = (.ok (f t), m) := by
    intro α f
    simp [query, ht]
  intro registers
  have hpage : Logger.pageOf table pid a b m = (.ok registers, m) := hquery _
  have hmessages : Storage.messages table (registers.map (·.id)) m =
      (.ok (t.messagesOf (registers.map (·.id))), m) := hquery _
  rw [Logger.logs_of_page hpage, hmessages]
  rfl

/-- A page of a table that any calls have filled. It holds the registers that stand at its positions among all
registers of the process by their numbers, the newest first, so fewer or none beyond the oldest one. Each of them has
the messages that were added to it, in the order in which they were added, and so the messages of a page are those of
its registers, each of them once. It makes no difference which position is given first, two pages that meet are
together the page of all their positions, and nothing is changed by looking. -/
theorem pages_are_stretches (operations : List Operation) {table : LogTable} {t : MemoryTable}
    (ht : (Operation.after ({} : Memory) operations).tables.get? table = some t)
    (hmax : t.lastRegister ≤ Logger.limitMax)
    (pid : ProcessId) :
    let m := Operation.after ({} : Memory) operations
    let notes := (transcript {} operations).filterMap (Exchange.message? table)
    let page := fun a b => Logger.logs ⟨some table⟩ pid a b m
    (t.newestFirst pid).Pairwise (fun a b => b.id < a.id) ∧
    (∀ r, r ∈ t.newestFirst pid ↔ r ∈ t.registers ∧ r.processId = pid) ∧
    (∀ a b, page a b = (.ok ((between (t.newestFirst pid) a b).map fun r =>
      ⟨r, notes.filter fun note => note.registerId = r.id⟩), m)) ∧
    (∀ a b entries, (page a b).1 = .ok entries → (entries.flatMap (·.messages)).Perm
      (notes.filter fun note => note.registerId ∈ entries.map (·.register.id))) ∧
    (∀ a b, page a b = page b a) ∧
    ∀ a b c, a ≤ b → b < c →
      ∃ p q, (page a b).1 = .ok p ∧ (page (b + 1) c).1 = .ok q ∧ (page a c).1 = .ok (p ++ q) := by
  intro m notes page
  have hfilled := after_filled operations ht
  have hdescending := MemoryTable.newestFirst_descending hfilled.ids pid
  -- Each number stands once in a page, so the messages of a page are those of its registers, none twice.
  have hnodup : ∀ a b, ((between (t.newestFirst pid) a b).map (·.id)).Nodup := fun a b =>
    List.pairwise_map.mpr ((hdescending.sublist (between_sublist _ a b)).imp Nat.ne_of_gt)
  have hpage : ∀ a b, page a b = (.ok ((between (t.newestFirst pid) a b).map fun r =>
      ⟨r, notes.filter fun note => note.registerId = r.id⟩), m) := by
    intro a b
    have hlogs := logs_eq ht pid a b
    simp only [MemoryTable.page_eq_between hfilled.ids hmax, Logger.attach_eq (hnodup a b)] at hlogs
    refine hlogs.trans (Prod.ext (congrArg Except.ok (List.map_congr_left fun r hr => ?_)) rfl)
    rw [t.filter_messagesOf (List.mem_map_of_mem hr), hfilled.messages]
  refine ⟨hdescending, fun r => MemoryTable.mem_newestFirst, hpage, fun a b entries hentries => ?_, fun a b => ?_,
    fun a b c hab hbc => ?_⟩
  · rw [hpage] at hentries
    cases hentries
    have hperm := flatMap_filter_perm (hnodup a b) notes
    rw [List.flatMap_map] at hperm ⊢
    simpa only [List.map_map, Function.comp_def] using hperm
  · rw [hpage, hpage, between_comm]
  · refine ⟨_, _, congrArg Prod.fst (hpage a b), congrArg Prod.fst (hpage (b + 1) c), ?_⟩
    rw [hpage, ← between_append _ hab hbc, List.map_append]

/-- Two registers of the process 7 and one of another, with messages in between. -/
def mixedCalls (table : LogTable) : List Operation :=
  [.init table, .insertRegister table 7 .start .epoch, .insertRegister table 8 .start .epoch,
    .insertMessage table 1 .info "first" .epoch, .insertRegister table 7 .start .epoch,
    .insertMessage table 3 .warning "second" .epoch, .insertMessage table 2 .info "other" .epoch,
    .insertMessage table 1 .error "third" .epoch]

/-- The table after these calls. -/
def mixedTable : MemoryTable where
  lastRegister := 3
  lastMessage := 4
  registers := [⟨1, 7, .start, .epoch, none, .epoch, none⟩, ⟨2, 8, .start, .epoch, none, .epoch, none⟩,
    ⟨3, 7, .start, .epoch, none, .epoch, none⟩]
  messages := [⟨1, 1, .info, "first", .epoch⟩, ⟨2, 3, .warning, "second", .epoch⟩,
    ⟨3, 2, .info, "other", .epoch⟩,
    ⟨4, 1, .error, "third", .epoch⟩]

theorem pages_are_stretches_of_mixedCalls :
    let table : LogTable := ⟨"log", by decide⟩
    let m := Operation.after ({} : Memory) (mixedCalls table)
    (Logger.logs ⟨some table⟩ 7 Logger.limitMax 0 m).1 = .ok [⟨⟨3, 7, .start, .epoch, none, .epoch, none⟩,
      [⟨2, 3, .warning, "second", .epoch⟩]⟩, ⟨⟨1, 7, .start, .epoch, none, .epoch, none⟩,
      [⟨1, 1, .info, "first", .epoch⟩, ⟨4, 1, .error, "third", .epoch⟩]⟩] := by
  intro table m
  obtain ⟨-, -, -, -, hswapped, happend⟩ :=
    @pages_are_stretches (mixedCalls table) table mixedTable (by decide) (by decide) 7
  obtain ⟨p, q, hp, hq, hboth⟩ := happend 0 0 Logger.limitMax (by decide) (by decide)
  have hlast : (Logger.logs ⟨some table⟩ 7 1 Logger.limitMax m).1 =
    .ok [⟨⟨1, 7, .start, .epoch, none, .epoch, none⟩,
      [⟨1, 1, .info, "first", .epoch⟩, ⟨4, 1, .error, "third", .epoch⟩]⟩] := by decide +kernel
  have hfirst : (Logger.logs ⟨some table⟩ 7 0 0 m).1 = .ok [⟨⟨3, 7, .start, .epoch, none, .epoch, none⟩,
      [⟨2, 3, .warning, "second", .epoch⟩]⟩] := by decide +kernel
  obtain rfl := Except.ok.inj (hp.symm.trans hfirst)
  obtain rfl := Except.ok.inj (hq.symm.trans hlast)
  exact (congrArg Prod.fst (hswapped Logger.limitMax 0)).trans hboth

end Memory

end ProcessRuns
