import ProcessRuns.Proofs.Sql.Catalog

/-! # Two logs on one server

The name of the table of the messages is the name of the log with a suffix, and this is itself a name that a log can
have. Two logs whose names are related in this way share a table on a server, and each writes rows to it. In memory,
where a pair of tables is known by the name of the log alone, they never do. -/

namespace ProcessRuns

/-- The names of the two tables of a log. -/
def LogTable.pair (t : LogTable) : List String := [t.process, t.messages]

/-- Calls to other tables leave a table in memory as it is. -/
theorem Memory.after_elsewhere {t : LogTable} {operations : List Operation} (h : ∀ o ∈ operations, t ≠ o.table)
    (m : Memory) : (Operation.after m operations).tables.get? t = m.tables.get? t := by
  induction operations generalizing m with
  | nil => rfl
  | cons o operations ih =>
    have hrest := ih (fun o' ho' => h o' (List.mem_cons_of_mem o ho')) (o.perform m).2
    exact hrest.trans (Operation.perform_elsewhere (h o List.mem_cons_self) m)

namespace Sql

open Session

/-- The table that a statement adds rows to, or whose rows it changes. -/
def Statement.written? (x : Statement) : Option String :=
  match x.pieces with
  | .words "INSERT INTO " :: .ident name :: _ | .words "UPDATE " :: .ident name :: _ => some name
  | _ => none

variable {t t' : LogTable}

/-! ### What is written for a log -/

/-- A call writes to the tables of its own log only. -/
theorem written_of_mem_statementsOf (o : Operation) : ∀ x ∈ statementsOf o, ∀ name ∈ x.written?,
    name ∈ o.table.pair := by
  intro x hx name hname
  cases o with
  | init t =>
    have hnone : (createAll t).map Statement.written? = List.replicate 5 none := rfl
    have hx : x.written? = none := List.eq_of_mem_replicate (hnone ▸ List.mem_map_of_mem hx)
    rw [hx] at hname
    cases hname
  | insertMessage t =>
    rcases List.mem_pair.mp hx with rfl | rfl <;> cases hname
    exact List.mem_cons_of_mem _ List.mem_cons_self
  | insertRegister | updateResult | appendValue | updateStatus =>
    rw [List.mem_singleton.mp hx] at hname
    cases hname
    exact List.mem_cons_self
  | maxLastProcess | maxData | registers | messages =>
    rw [List.mem_singleton.mp hx] at hname
    cases hname

/-- Whatever any calls send is a statement of one of them. -/
theorem after_sends (operations : List Operation) (s : Session) : ∃ sent,
    (Operation.after s operations).sent = s.sent ++ sent ∧
    ∀ x, .statement x ∈ sent → ∃ o ∈ operations, x ∈ statementsOf o := by
  induction operations generalizing s with
  | nil => exact ⟨[], (List.append_nil _).symm, by simp⟩
  | cons o operations ih =>
    obtain ⟨first, hfirst, hown⟩ := sends_perform o s
    obtain ⟨rest, hrest, hlater⟩ := ih (o.perform s).2
    refine ⟨first ++ rest, ?_, fun x hx => ?_⟩
    · rw [← List.append_assoc, ← hfirst]
      exact hrest
    · rcases List.mem_append.mp hx with hx | hx
      · exact ⟨o, List.mem_cons_self, hown x hx⟩
      · obtain ⟨o', ho', hx'⟩ := hlater x hx
        exact ⟨o', List.mem_cons_of_mem o ho', hx'⟩

/-! ### Names in common -/

/-- The names of both tables are kept as they are. -/
theorem kept_of_mem_pair {name : String} (h : name ∈ t.pair) : kept name = name := by
  have hshort : ∀ {name : String}, IsPlain name → name.length ≤ identifierMax → kept name = name :=
      fun hplain hlength => by
    rw [hplain.kept, List.take_of_length_le (String.length_toList ▸ hlength), String.ofList_toList]
  have hlength := (length_process t).2
  rcases List.mem_pair.mp h with rfl | rfl
  · exact hshort (isPlain_process t) (hlength.trans (by decide))
  · refine hshort (isPlain_messages t) ?_
    rw [LogTable.messages, String.length_append]
    exact Nat.add_le_add_right hlength 9

theorem kept_pair (t : LogTable) : t.pair.map kept = t.pair :=
  (List.map_congr_left fun _ h => kept_of_mem_pair h).trans (List.map_id t.pair)

/-- Two pairs of tables have a name in common if one log is called as the table of the messages of the other is. -/
theorem disjoint_pair_iff (h : t.process ≠ t'.process) :
    t.pair.Disjoint t'.pair ↔ t'.process ≠ t.messages ∧ t.process ≠ t'.messages := by
  have hmessages : t.messages ≠ t'.messages := fun heq => h ((String.append_left_inj "_messages").mp heq)
  constructor
  · intro hdisjoint
    exact ⟨fun heq => hdisjoint (List.mem_cons_of_mem _ List.mem_cons_self) (heq ▸ List.mem_cons_self),
      fun heq => hdisjoint List.mem_cons_self (heq ▸ List.mem_cons_of_mem _ List.mem_cons_self)⟩
  · rintro ⟨hfirst, hsecond⟩ name hname hname'
    rcases List.mem_pair.mp hname with rfl | rfl <;> rcases List.mem_pair.mp hname' with heq | heq
    · exact h heq
    · exact hsecond heq
    · exact hfirst heq.symm
    · exact hmessages heq

/-- Nothing that is sent for one log writes to a table of the other, whatever is answered. -/
def WritesApart (t t' : LogTable) : Prop :=
  ∀ operations : List Operation, (∀ o ∈ operations, o.table = t) → ∀ (s : Session) (sent : List Sent),
    (Operation.after s operations).sent = s.sent ++ sent → ∀ x, .statement x ∈ sent →
      ∀ name ∈ x.written?, kept name ∉ t'.pair.map kept

theorem writesApart_iff (h : t.process ≠ t'.process) :
    WritesApart t t' ↔ t'.process ≠ t.messages ∧ t.process ≠ t'.messages := by
  constructor
  · intro hapart
    constructor
    · -- a message of the first log goes to the registers of the second
      intro hshared
      have hmessage := hapart [.insertMessage t 1 .info "" .epoch] (by simp [Operation.table]) ⟨[.rows [[.int 1]]], []⟩
        [.statement ⟨countRegister t, [.int 1]⟩,
          .statement ⟨insertMessage t, [.int 1, .int MessageType.info.code, .text "", .ofInstant .epoch]⟩] rfl
        ⟨insertMessage t, [.int 1, .int MessageType.info.code, .text "", .ofInstant .epoch]⟩ (by simp) t.messages rfl
      exact hmessage (List.mem_map_of_mem (hshared ▸ List.mem_cons_self))
    · -- a register of the first log goes to the messages of the second
      intro hshared
      have hregister := hapart [.insertRegister t 1 .start .epoch] (by simp [Operation.table]) ⟨[], []⟩
        [.statement ⟨insertRegister t, [.int 1, .int Status.start.code, .ofInstant .epoch, .ofInstant .epoch]⟩] rfl
        ⟨insertRegister t, [.int 1, .int Status.start.code, .ofInstant .epoch, .ofInstant .epoch]⟩
          (by simp) t.process rfl
      exact hregister (List.mem_map_of_mem (hshared ▸ List.mem_cons_of_mem _ List.mem_cons_self))
  · intro hnames operations htable s sent hsent x hx name hname
    obtain ⟨sent', hsent', hmem⟩ := after_sends operations s
    rw [hsent', List.append_cancel_left_eq] at hsent
    obtain ⟨o, ho, hx⟩ := hmem x (hsent ▸ hx)
    have hpair : name ∈ t.pair := htable o ho ▸ written_of_mem_statementsOf o x hx name hname
    rw [kept_pair, kept_of_mem_pair hpair]
    exact (disjoint_pair_iff h).mpr hnames hpair

/-- On a server two logs are apart, in the names of their tables and in what is written for them by any calls, just if
neither is called as the table of the messages of the other is. In memory they always are. -/
theorem logs_are_apart_iff (h : t.process ≠ t'.process) :
    ((t.pair.map kept).Disjoint (t'.pair.map kept) ↔ t'.process ≠ t.messages ∧ t.process ≠ t'.messages) ∧
      (WritesApart t t' ↔ t'.process ≠ t.messages ∧ t.process ≠ t'.messages) ∧
      ∀ operations : List Operation, (∀ o ∈ operations, o.table = t) → ∀ m : Memory,
        (Operation.after m operations).tables.get? t' = m.tables.get? t' := by
  rw [kept_pair, kept_pair]
  refine ⟨disjoint_pair_iff h, writesApart_iff h, fun operations htable m => ?_⟩
  have hother : t' ≠ t := fun heq => h (congrArg LogTable.process heq.symm)
  exact Memory.after_elsewhere (fun o ho => (htable o ho).symm ▸ hother) m

/-- A log that is called as the messages of another one shares this table with it on a server, and not in memory. -/
theorem logs_are_apart_iff_of_log :
    let t : LogTable := ⟨"log", by decide⟩
    let t' : LogTable := ⟨"log_messages", by decide⟩
    let m : Memory := Operation.after {} [.init t', .init t]
    t.process ≠ t'.process ∧ ¬ (t.pair.map kept).Disjoint (t'.pair.map kept) ∧ ¬ WritesApart t t' ∧
      (Operation.after m [.insertRegister t 1 .start .epoch, .insertMessage t 1 .info "" .epoch]).tables.get? t' =
        m.tables.get? t' := by
  intro t t' m
  have hdifferent : t.process ≠ t'.process := by decide
  have hshared : ¬ (t'.process ≠ t.messages ∧ t.process ≠ t'.messages) := by decide
  obtain ⟨hnames, hwrites, hmemory⟩ := logs_are_apart_iff hdifferent
  exact ⟨hdifferent, mt hnames.mp hshared, mt hwrites.mp hshared, hmemory _ (by simp [Operation.table]) m⟩

end Sql

end ProcessRuns
