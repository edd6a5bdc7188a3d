import ProcessRuns.Proofs.Log.Requests
import ProcessRuns.Proofs.Sql.Texts

/-! # Texts that a server refuses

A server refuses texts with the character NUL. A log takes it out of the messages and values that it hands on, but not
out of the tags. -/

namespace ProcessRuns

/-- The text has a NUL character, which the server refuses. -/
def HasNul (text : String) : Prop := '\x00' ∈ text.toList

instance (text : String) : Decidable (HasNul text) := inferInstanceAs (Decidable ('\x00' ∈ text.toList))

theorem not_hasNul_withoutNul (text : String) : ¬ HasNul (Logger.withoutNul text) := by
  simp [HasNul, Logger.withoutNul]

theorem Logger.isValid_iff {l : Logger} : l.isValid = true ↔ ∃ table, l.table = some table := Option.isSome_iff_exists

namespace LogCall

variable {table : LogTable} {o : Operation} {text : String}

/-- The only text with a NUL that a call asks for is the tag that it was given. -/
theorem Requests.tag_of_hasNul {c : LogCall} (h : c.Requests table o) (htext : text ∈ o.texts) (hnul : HasNul text) :
    ∃ value id, c = addValue text value id ∧ o = .appendValue table id text (Logger.withoutNul value) := by
  have clean : ∀ {tag value : String}, ¬ HasNul tag → text ∉ [tag, Logger.withoutNul value] := by
    intro tag value htag hmem
    rcases List.mem_pair.mp hmem with rfl | rfl
    · exact htag hnul
    · exact not_hasNul_withoutNul value hnul
  cases c with
  | addValue tag value id =>
    cases h
    rcases List.mem_pair.mp htext with rfl | rfl
    · exact ⟨value, id, rfl, rfl⟩
    · exact absurd hnul (not_hasNul_withoutNul value)
  | log type description id now =>
    cases h
    rw [List.mem_singleton.mp htext] at hnul
    exact absurd hnul (not_hasNul_withoutNul description)
  | setStart time id =>
    cases h
    exact absurd htext (clean (by decide))
  | setEnd time id =>
    cases h
    exact absurd htext (clean (by decide))
  | logs processId a b =>
    rcases h with ⟨_, _, rfl⟩ | ⟨_, rfl⟩ <;> cases htext
  | select name =>
    rcases h with rfl | rfl | rfl <;> cases htext
  | turn name | start processId now | result status date id now | updateStatus old new | lastProcess processId
  | lastData processId =>
    cases h
    cases htext

end LogCall

/-! ### What is handed on -/

namespace Sql

theorem text_of_mem_statementsOf {o : Operation} {x : Statement} (hx : x ∈ statementsOf o) {text : String}
    (htext : .text text ∈ x.params) : text ∈ o.texts := by
  have hinstant : ∀ a, Param.text text ≠ .ofInstant a := fun a h => by cases h
  have hinstant? : ∀ a, Param.text text ≠ .ofInstant? a := fun a h => by cases a <;> cases h
  cases o with
  | init t =>
    have hparams : ∀ x ∈ createAll t, x.params = [] := by simp [createAll, createRegisters, createMessages]
    simp [hparams x hx] at htext
  | insertMessage t id type description now =>
    rcases List.mem_pair.mp hx with rfl | rfl <;> simp [hinstant] at htext
    exact List.mem_singleton.mpr htext
  | appendValue t id tag value =>
    cases List.mem_singleton.mp hx
    simpa [Operation.texts] using htext
  | insertRegister | updateResult | maxLastProcess | maxData | registers | messages | updateStatus =>
    cases List.mem_singleton.mp hx
    simp [hinstant, hinstant?, pageStatement, messagesStatement] at htext

/-- What operations send is what each of them may send. -/
theorem sends_after (operations : List Operation) (s : Session) : ∃ sent,
    (Operation.after s operations).sent = s.sent ++ sent ∧
    ∀ x, .statement x ∈ sent → ∃ o ∈ operations, x ∈ statementsOf o := by
  induction operations generalizing s with
  | nil => exact ⟨[], (List.append_nil _).symm, by simp⟩
  | cons o operations ih =>
    obtain ⟨first, hfirst, hmem⟩ := sends_perform o s
    obtain ⟨rest, hrest, hmore⟩ := ih (o.perform s).2
    refine ⟨first ++ rest, ?_, fun x hx => ?_⟩
    · rw [← List.append_assoc, ← hfirst]
      exact hrest
    · rcases List.mem_append.mp hx with hx | hx
      · exact ⟨o, List.mem_cons_self, hmem x hx⟩
      · obtain ⟨o', ho', hx'⟩ := hmore x hx
        exact ⟨o', List.mem_cons_of_mem o ho', hx'⟩

theorem execute_snd (statement : Statement) (s : Session) :
    (Session.execute statement s).2 = ⟨s.replies.tail, s.sent ++ [.statement statement]⟩ := by
  refine Action.snd_of_pure fun reply s => ?_
  cases reply <;> rfl

theorem sent_appendValue (t : LogTable) (id : RegisterId) (tag value : String) (s : Session) :
    (Storage.appendValue t id tag value s).2.sent =
      s.sent ++ if id ≤ idMax then [.statement ⟨appendValue t, [.text tag, .text value, .int id]⟩] else [] := by
  simp only [Storage.appendValue, toColumn]
  split
  · exact congrArg Session.sent ((Action.snd_of_pure fun _ _ => rfl).trans (execute_snd _ s))
  · exact (List.append_nil _).symm

end Sql

namespace LogCall

variable {σ : Type} [Storage σ]

theorem asked_addValue {l : Logger} {table : LogTable} (h : l.table = some table) (tag value : String) (id : RegisterId)
    (s : Noted σ) : ((addValue tag value id).act l s).2.asked =
      s.asked ++ [.appendValue table id tag (Logger.withoutNul value)] := by
  show (l.addValue tag value id s).2.asked = _
  rw [l.addValue_apply s h, Logger.expect_snd]
  rfl

theorem sent_addValue {l : Logger} {table : LogTable} (h : l.table = some table) (tag value : String) (id : RegisterId)
    (s : Sql.Session) : ((addValue tag value id).act l s).2.sent = s.sent ++ if id ≤ Sql.idMax then
      [.statement ⟨Sql.appendValue table, [.text tag, .text (Logger.withoutNul value), .int id]⟩] else [] := by
  show (l.addValue tag value id s).2.sent = _
  rw [l.addValue_apply s h, Logger.expect_snd, Sql.sent_appendValue]

theorem nul_asked (c : LogCall) (l : Logger) (s : Noted σ) : ∃ asked,
    (c.act l s).2 = ⟨(c.act l s.storage).2, s.asked ++ asked⟩ ∧
    ((∃ o ∈ asked, ∃ text ∈ o.texts, HasNul text) ↔
      l.isValid ∧ ∃ tag value id, c = .addValue tag value id ∧ HasNul tag) := by
  obtain ⟨asked, hact, -, hasked⟩ := c.act_noted l s
  refine ⟨asked, congrArg Prod.snd hact, ⟨?_, ?_⟩⟩
  · rintro ⟨o, ho, text, htext, hnul⟩
    obtain ⟨table, htable, hrequest⟩ := hasked o ho
    obtain ⟨value, id, rfl, -⟩ := hrequest.tag_of_hasNul htext hnul
    exact ⟨Logger.isValid_iff.mpr ⟨table, htable⟩, text, value, id, rfl, hnul⟩
  · rintro ⟨hvalid, tag, value, id, rfl, hnul⟩
    obtain ⟨table, htable⟩ := Logger.isValid_iff.mp hvalid
    have hasked := asked_addValue htable tag value id s
    rw [hact, List.append_cancel_left_eq] at hasked
    exact ⟨_, hasked ▸ List.mem_cons_self, tag, List.mem_cons_self, hnul⟩

theorem nul_sent (c : LogCall) (l : Logger) (s : Sql.Session) : ∃ sent, (c.act l s).2.sent = s.sent ++ sent ∧
    ((∃ x, .statement x ∈ sent ∧ ∃ text, .text text ∈ x.params ∧ HasNul text) ↔
      l.isValid ∧ ∃ tag value id, c = .addValue tag value id ∧ HasNul tag ∧ id ≤ Sql.idMax) := by
  obtain ⟨asked, -, hafter, hasked⟩ := c.act_noted l (⟨s, []⟩ : Noted Sql.Session)
  obtain ⟨sent, hsent, hmem⟩ := Sql.sends_after asked s
  have hall : (c.act l s).2.sent = s.sent ++ sent := (congrArg Sql.Session.sent hafter).trans hsent
  refine ⟨sent, hall, ⟨?_, ?_⟩⟩
  · rintro ⟨x, hx, text, htext, hnul⟩
    obtain ⟨o, ho, hxo⟩ := hmem x hx
    obtain ⟨table, htable, hrequest⟩ := hasked o ho
    obtain ⟨value, id, rfl, -⟩ := hrequest.tag_of_hasNul (Sql.text_of_mem_statementsOf hxo htext) hnul
    refine ⟨Logger.isValid_iff.mpr ⟨table, htable⟩, text, value, id, rfl, hnul, ?_⟩
    by_contra hid
    rw [sent_addValue htable, if_neg hid, List.append_cancel_left_eq] at hall
    rw [← hall] at hx
    cases hx
  · rintro ⟨hvalid, tag, value, id, rfl, hnul, hid⟩
    obtain ⟨table, htable⟩ := Logger.isValid_iff.mp hvalid
    rw [sent_addValue htable, if_pos hid, List.append_cancel_left_eq] at hall
    exact ⟨_, hall ▸ List.mem_cons_self, tag, List.mem_cons_self, hnul⟩

/-- A call hands a text with the character NUL on to the storage exactly if it adds a value under a tag with a NUL and
the logger has tables, and it is bound in a statement if moreover the id of the register fits its column. -/
theorem nul_is_handed_on_in_tags (c : LogCall) (l : Logger) :
    (∀ s : Noted σ, ∃ asked, (c.act l s).2 = ⟨(c.act l s.storage).2, s.asked ++ asked⟩ ∧
      ((∃ o ∈ asked, ∃ text ∈ o.texts, HasNul text) ↔
        l.isValid ∧ ∃ tag value id, c = .addValue tag value id ∧ HasNul tag)) ∧
    ∀ s : Sql.Session, ∃ sent, (c.act l s).2.sent = s.sent ++ sent ∧
      ((∃ x, .statement x ∈ sent ∧ ∃ text, .text text ∈ x.params ∧ HasNul text) ↔
        l.isValid ∧ ∃ tag value id, c = .addValue tag value id ∧ HasNul tag ∧ id ≤ Sql.idMax) :=
  ⟨c.nul_asked l, c.nul_sent l⟩

/-- The tag is bound as it was given, and the value beside it without the NUL. -/
example :
    let table : LogTable := ⟨"log", by decide⟩
    ((addValue "a\x00b" "c\x00d" 1).act ⟨some table⟩ (⟨[.affected 1], []⟩ : Sql.Session)).2.sent =
      [.statement ⟨Sql.appendValue table, [.text "a\x00b", .text "cd", .int 1]⟩] := by
  decide

end LogCall

end ProcessRuns
