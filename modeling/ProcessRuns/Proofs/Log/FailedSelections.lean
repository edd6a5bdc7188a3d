import ProcessRuns.Proofs.Log.Entries
import ProcessRuns.Proofs.Log.Requests

/-! # Selections that fail

A logger turns to the tables that it selects before it repairs them. A selection that fails leaves the logger as it was
if the name is none or the tables could not be created; if the repair fails, the logger is left with the new tables, and
goes on with them. -/

namespace ProcessRuns

namespace Logger

variable {σ : Type} [Storage σ] {name : String} {l l' : Logger} {table : LogTable} {e : Failure}

/-- What a selection asks for if nothing fails, in that order. -/
def selection (table : LogTable) : List Operation :=
  [.init table, .updateStatus table [.start] .interrupted, .updateStatus table [.onQueue] .notExecuted]

theorem tableName_eq_iff : l'.tableName = l.tableName ↔ l' = l := by
  have hprocess : Function.Injective LogTable.process := by
    rintro ⟨a, ha⟩ ⟨b, hb⟩ rfl
    rfl
  refine ⟨fun h => ?_, fun h => h ▸ rfl⟩
  have htable : l'.table = l.table := Option.map_injective hprocess h
  obtain ⟨table⟩ := l
  exact congrArg Logger.mk htable

theorem asked_updateStatus (table : LogTable) (old : List Status) (new : Status) (s : Noted σ) :
    ((⟨some table⟩ : Logger).updateStatus old new s).2.asked = s.asked ++ [.updateStatus table old new] := rfl

/-- A repair fails at its first or at its second update. -/
theorem repair_error {s t : Noted σ} (h : (⟨some table⟩ : Logger).repair s = (.error e, t)) :
    t.asked = s.asked ++ [.updateStatus table [.start] .interrupted] ∨
      t.asked = s.asked ++ [.updateStatus table [.start] .interrupted,
          .updateStatus table [.onQueue] .notExecuted] := by
  have hfirst := asked_updateStatus table [.start] .interrupted s
  rw [repair, Action.bind_apply] at h
  split at h
  · rename_i count u hu
    rw [hu] at hfirst
    have hsecond := asked_updateStatus table [.onQueue] .notExecuted u
    rw [Action.bind_apply] at h
    split at h
    · cases h
    · rename_i f v hv
      cases h
      rw [hv, hfirst, List.append_assoc] at hsecond
      exact Or.inr hsecond
  · rename_i f u hu
    cases h
    rw [hu] at hfirst
    exact Or.inl hfirst

/-- A selection fails at the name, at the creation of the tables, or at one of the updates of the repair, and it has
turned the logger in the last of these cases. -/
theorem select_error {s s' : Noted σ} (h : select name (l, s) = (.error e, l', s')) :
    (LogTable.ofName name = .error e ∧ l' = l ∧ s' = s) ∨
      ∃ table n, LogTable.ofName name = .ok table ∧ 1 ≤ n ∧ n ≤ 3 ∧
        s'.asked = s.asked ++ (selection table).take n ∧ l' = if n = 1 then l else ⟨some table⟩ := by
  rw [select_apply] at h
  cases hname : LogTable.ofName name with
  | error f =>
    rw [turn_of_no_name hname] at h
    cases h
    exact Or.inl ⟨rfl, rfl, rfl⟩
  | ok table =>
    refine Or.inr ⟨table, ?_⟩
    have hasked : (Storage.init table s).2.asked = s.asked ++ [.init table] := rfl
    cases hinit : Storage.init table s with
    | mk r t =>
      rw [hinit] at hasked
      cases r with
      | error f =>
        rw [turn_of_error hname l hinit] at h
        cases h
        exact ⟨1, rfl, by decide, by decide, hasked, rfl⟩
      | ok =>
        rw [turn_of_ok hname l hinit] at h
        obtain ⟨hresult, hrest⟩ := Prod.mk.inj h
        obtain ⟨hlogger, hstorage⟩ := Prod.mk.inj hrest
        rcases repair_error (Prod.ext hresult hstorage) with hs | hs
        · exact ⟨2, rfl, by decide, by decide, by rw [hs, hasked, List.append_assoc]; rfl, hlogger.symm⟩
        · exact ⟨3, rfl, by decide, by decide, by rw [hs, hasked, List.append_assoc]; rfl, hlogger.symm⟩

end Logger

namespace LogCall

variable {σ : Type} [Storage σ]

/-- The logger and the storage after some calls. -/
def acts (l : Logger) (s : σ) : List LogCall → Logger × σ
  | [] => (l, s)
  | c :: calls => acts (c.act l s).1 (c.act l s).2 calls

theorem act_of_not_selects {c : LogCall} (h : c.selects = false) (l : Logger) (s : σ) : (c.act l s).1 = l := by
  cases c with
  | turn name | select name => cases h
  | _ => rfl

theorem Requests.table_eq {c : LogCall} {table : LogTable} {o : Operation} (h : c.Requests table o) :
    o.table = table := by
  cases c with
  | select name => rcases h with rfl | rfl | rfl <;> rfl
  | logs processId a b => rcases h with ⟨_, _, rfl⟩ | ⟨_, rfl⟩ <;> rfl
  | _ =>
    cases h
    rfl

theorem table_of_mayAsk {c : LogCall} (h : c.selects = false) {l : Logger} {o : Operation} (ho : c.MayAsk l o) :
    l.table = some o.table := by
  obtain ⟨table, htable, hrequest⟩ := ho
  rw [hrequest.table_eq]
  cases c with
  | turn name | select name => cases h
  | _ => exact htable

/-- Until it selects tables again a logger asks for everything on the same table. -/
theorem acts_on_table {calls : List LogCall} (h : ∀ c ∈ calls, c.selects = false) (l : Logger) (s : Noted σ) :
    ∃ asked, (acts l s calls).1 = l ∧ (acts l s calls).2.asked = s.asked ++ asked ∧
      ∀ o ∈ asked, l.table = some o.table := by
  induction calls generalizing s with
  | nil => exact ⟨[], rfl, (List.append_nil _).symm, by simp⟩
  | cons c calls ih =>
    obtain ⟨hc, hcalls⟩ := List.forall_mem_cons.mp h
    obtain ⟨first, hact, -, hfirst⟩ := c.act_noted l s
    have hlogger : (c.act l s).1 = l := act_of_not_selects hc l s
    have hasked : (c.act l s).2.asked = s.asked ++ first := by rw [hact]
    obtain ⟨rest, hrest, hmore, hmem⟩ := ih hcalls (c.act l s).2
    have hacts : acts l s (c :: calls) = acts l (c.act l s).2 calls := by rw [acts, hlogger]
    refine ⟨first ++ rest, by rw [hacts, hrest], by rw [hacts, hmore, hasked, List.append_assoc], ?_⟩
    exact List.forall_mem_append.mpr ⟨fun o ho => table_of_mayAsk hc (hfirst o ho), hmem⟩

end LogCall

namespace Logger

variable {σ : Type} [Storage σ]

/-- A selection that fails leaves the logger as it was exactly if it did not come to the repair, or if the logger was on
these tables before. Otherwise the logger is on the new tables from then on, and asks for everything on them until it
selects tables again. -/
theorem failed_selection_changes_nothing_iff {name : String} {l l' : Logger} {s s' : Noted σ} {e : Failure}
    (h : select name (l, s) = (.error e, l', s')) : ∃ asked, s'.asked = s.asked ++ asked ∧
      (l'.tableName = l.tableName ∧ l'.isValid = l.isValid ↔
        asked.length ≤ 1 ∨ ∃ table, LogTable.ofName name = .ok table ∧ l.table = some table) ∧
      (1 < asked.length →
        ∃ table, LogTable.ofName name = .ok table ∧ asked <+: selection table ∧ l' = ⟨some table⟩) ∧
      ∀ calls : List LogCall, (∀ c ∈ calls, c.selects = false) → ∃ more, (LogCall.acts l' s' calls).1 = l' ∧
        (LogCall.acts l' s' calls).2.asked = s'.asked ++ more ∧ ∀ o ∈ more, l'.table = some o.table := by
  have later := fun calls (hcalls : ∀ c ∈ calls, LogCall.selects c = false) => LogCall.acts_on_table hcalls l' s'
  have same : l' = l → l'.tableName = l.tableName ∧ l'.isValid = l.isValid := fun h => by rw [h]; exact ⟨rfl, rfl⟩
  rcases select_error h with ⟨-, hl, hs⟩ | ⟨table, n, hname, hpos, hle, hs, hl⟩
  · exact ⟨[], by rw [hs, List.append_nil], iff_of_true (same hl) (Or.inl (by decide)), by simp, later⟩
  · have hlength : ((selection table).take n).length = n := by
      rw [List.length_take]
      exact Nat.min_eq_left hle
    refine ⟨_, hs, ?_, fun hlong => ⟨table, hname, List.take_prefix _ _, ?_⟩, later⟩
    · rw [hlength]
      constructor
      · rintro ⟨htable, -⟩
        by_cases hn : n = 1
        · exact Or.inl (by omega)
        · rw [if_neg hn] at hl
          rw [tableName_eq_iff.mp htable] at hl
          exact Or.inr ⟨table, hname, by rw [hl]⟩
      · rintro (hn | ⟨other, hother, htable⟩)
        · exact same (by rw [hl, if_pos (by omega)])
        · rw [hname] at hother
          cases hother
          refine same ?_
          rw [hl]
          split
          · rfl
          · exact congrArg Logger.mk htable.symm
    · rw [hlength] at hlong
      rw [hl, if_neg (by omega)]

/-- The second update of the repair fails, and the logger that had no tables opens a register in the new ones. -/
theorem failed_selection_changes_nothing_iff_of_secondUpdate :
    let s : Noted (Flaky Memory) := ⟨⟨{}, [false, false, true]⟩, []⟩
    let p := select " Analysis_1" ((⟨none⟩ : Logger), s)
    p.1 = .error (.injected .updateStatus) ∧ p.2.1.isValid = true ∧
      ∃ o, (LogCall.acts p.2.1 p.2.2 [.start 7 .epoch]).2.asked = p.2.2.asked ++ [o] ∧
          o.table.process = "analysis_1" := by
  intro s p
  have hfail : p.1 = .error (.injected .updateStatus) := by decide
  have h : select " Analysis_1" ((⟨none⟩ : Logger), s) = (.error (.injected .updateStatus), p.2.1, p.2.2) :=
    Prod.ext hfail rfl
  obtain ⟨asked, hasked, -, hnew, hlater⟩ := failed_selection_changes_nothing_iff h
  have hlength : asked.length = 3 := by
    have hall : p.2.2.asked.length = 3 := by decide
    rwa [hasked, List.nil_append] at hall
  obtain ⟨table, -, -, hl⟩ := hnew (by omega)
  obtain ⟨more, -, hmore, htables⟩ := hlater [.start 7 .epoch] (by decide)
  have hone : more.length = 1 := by
    have hall : (LogCall.acts p.2.1 p.2.2 [.start 7 .epoch]).2.asked.length = 4 := by decide
    rw [hmore, hasked, List.nil_append, List.length_append] at hall
    omega
  obtain ⟨o, rfl⟩ := List.length_eq_one_iff.mp hone
  have htable : p.2.1.tableName = some o.table.process := congrArg (Option.map _) (htables o List.mem_cons_self)
  have hprocess : p.2.1.tableName = some "analysis_1" := by decide
  exact ⟨hfail, by rw [hl]; rfl, o, hmore, Option.some.inj (htable.symm.trans hprocess)⟩

end Logger

end ProcessRuns
