import Mathlib
import ProcessRuns.Proofs.Sql.TablePairs
import ProcessRuns.Settings.Basic

/-! # Names of logs

A log is known by the lower-case form of its name without the white space around it, so that the case of ASCII letters
and this white space make no difference. The name that a service has for its log is one already, and no two services
share a table. -/

namespace ProcessRuns

/-! ### White space around a text -/

namespace Text

variable {before core after : List Char}

theorem trimStart_blanks (h : ∀ c ∈ before, isBlank c = true) (cs : List Char) :
    trimStart (before ++ cs) = trimStart cs :=
  List.dropWhile_append_of_pos h

/-- White space around a text without any is trimmed away. -/
theorem trim_blanks (hbefore : ∀ c ∈ before, isBlank c = true) (hafter : ∀ c ∈ after, isBlank c = true)
    (hcore : ∀ c ∈ core, isBlank c = false) : trim (before ++ core ++ after) = core := by
  have hself := trim_eq_self hcore
  rw [List.append_assoc, trim, trimStart_blanks hbefore]
  cases core with
  | nil =>
    rw [List.nil_append, show trimStart after = [] from List.dropWhile_eq_nil_iff.mpr hafter]
    rfl
  | cons c cs =>
    have hc : isBlank c = false := hcore c List.mem_cons_self
    have hafter' : ∀ c ∈ after.reverse, isBlank c = true := by simpa using hafter
    rw [trim, trimStart_eq_self hc] at hself
    rw [List.cons_append, trimStart_eq_self hc, ← List.cons_append, List.reverse_append, trimStart_blanks hafter',
      hself]

end Text

namespace LogTable

open Sql (IsPlain isPlain_process disjoint_pair_iff)

/-! ### Characters of names -/

theorem isStart_eq (c : Char) : isStart c = (c.isLower || c == '_') := rfl

theorem isPart_eq (c : Char) : isPart c = (c.isLower || c == '_' || c.isDigit) := rfl

theorem toNat_of_isPart {c : Char} (h : isPart c = true) :
    97 ≤ c.toNat ∧ c.toNat ≤ 122 ∨ c.toNat = 95 ∨ 48 ≤ c.toNat ∧ c.toNat ≤ 57 := by
  simp only [isPart_eq, Char.isLower, Char.isDigit, Bool.or_eq_true, Bool.and_eq_true, decide_eq_true_eq, beq_iff_eq,
    ge_iff_le, UInt32.le_iff_toNat_le] at h
  rcases h with (h | rfl) | h
  · exact Or.inl h
  · exact Or.inr (Or.inl rfl)
  · exact Or.inr (Or.inr h)

theorem toNat_of_isUpper {c : Char} (h : c.isUpper = true) : 65 ≤ c.toNat ∧ c.toNat ≤ 90 := by
  simp only [Char.isUpper, decide_eq_true_eq, ge_iff_le, UInt32.le_iff_toNat_le] at h
  exact h

theorem toLower_eq_self {c : Char} (h : isPart c = true) : c.toLower = c := by
  refine Char.toLower_eq_of_not_isUpper fun hupper => ?_
  have hpart := toNat_of_isPart h
  have hrange := toNat_of_isUpper hupper
  omega

/-- What gives a character of a name in lower case is an ASCII character and no white space. -/
theorem ascii_of_toLower {c : Char} (h : isPart c.toLower = true) : c.toNat < 0x80 ∧ Text.isBlank c = false := by
  have hrange : 48 ≤ c.toNat ∧ c.toNat ≤ 122 := by
    by_cases hupper : c.isUpper = true
    · have := toNat_of_isUpper hupper
      omega
    · rw [Char.toLower_eq_of_not_isUpper hupper] at h
      have := toNat_of_isPart h
      omega
  refine ⟨by omega, ?_⟩
  simp only [Text.isBlank, Bool.or_eq_false_iff, Bool.and_eq_false_iff, decide_eq_false_iff_not, beq_eq_false_iff_ne]
  omega

/-- A name is a small letter or an underscore, and at most 53 small letters, digits and underscores behind it. -/
theorem isName_iff {cs : List Char} : isName cs = true ↔
    ∃ first rest, cs = first :: rest ∧ (first.isLower = true ∨ first = '_') ∧ rest.length ≤ 53 ∧
      ∀ c ∈ rest, c.isLower = true ∨ c = '_' ∨ c.isDigit = true := by
  cases cs with
  | nil => simp [isName]
  | cons first rest =>
    simp only [isName, isStart_eq, isPart_eq, maxLength, Bool.and_eq_true, Bool.or_eq_true, beq_iff_eq,
      List.all_eq_true,
      decide_eq_true_eq, Nat.lt_succ_iff, or_assoc]
    constructor
    · rintro ⟨⟨hfirst, hrest⟩, hlength⟩
      exact ⟨first, rest, rfl, hfirst, hlength, hrest⟩
    · rintro ⟨_, _, heq, hfirst, hlength, hrest⟩
      cases heq
      exact ⟨⟨hfirst, hrest⟩, hlength⟩

/-! ### Forms of names -/

/-- A text is a name but for the case of its ASCII letters and the white space around it. -/
def Spells (text name : String) : Prop :=
  ∃ before core after : List Char, text.toList = before ++ core ++ after ∧
    (∀ c ∈ before ++ after, Text.isBlank c = true) ∧
    core.map Char.toLower = name.toList.map Char.toLower

theorem spells_refl (name : String) : Spells name name :=
  ⟨[], name.toList, [], by simp, by simp, rfl⟩

/-- Whatever spells a plain name has this name for its form. -/
theorem normalName_of_spells {text name : String} (h : Spells text name) (hname : IsPlain name) :
    normalName text = name := by
  obtain ⟨before, core, after, htext, hblank, hcore⟩ := h
  have hparts : ∀ c ∈ name.toList, isPart c = true := List.all_eq_true.mp hname
  have hlower : name.toList.map Char.toLower = name.toList :=
    (List.map_congr_left fun c hc => toLower_eq_self (hparts c hc)).trans (List.map_id _)
  rw [hlower] at hcore
  have hascii : ∀ c ∈ core, c.toNat < 0x80 ∧ Text.isBlank c = false := fun c hc =>
    ascii_of_toLower (hparts _ (hcore ▸ List.mem_map_of_mem hc))
  rw [normalName, htext, Text.trim_blanks (fun c hc => hblank c (List.mem_append_left _ hc))
    (fun c hc => hblank c (List.mem_append_right _ hc)) fun c hc => (hascii c hc).2,
    Text.lower_ascii fun c hc => (hascii c hc).1, hcore, String.ofList_toList]

theorem ofName_eq_ok_iff {name : String} {t : LogTable} : ofName name = .ok t ↔ t.process = normalName name := by
  unfold ofName
  split
  · rw [Except.ok.injEq]
    constructor
    · rintro rfl
      rfl
    · intro h
      obtain ⟨process, named⟩ := t
      cases h
      rfl
  · rename_i hnot
    simp only [reduceCtorEq, false_iff]
    exact fun h => hnot (h ▸ t.named)

theorem exists_ofName_iff {name : String} : (∃ t, ofName name = .ok t) ↔ isName (normalName name).toList = true := by
  constructor
  · rintro ⟨t, ht⟩
    rw [← ofName_eq_ok_iff.mp ht]
    exact t.named
  · exact fun h => ⟨⟨normalName name, h⟩, ofName_eq_ok_iff.mpr rfl⟩

theorem ofName_of_spells {t : LogTable} {text : String} (h : Spells text t.process) : ofName text = .ok t :=
  ofName_eq_ok_iff.mpr (normalName_of_spells h (isPlain_process t)).symm

end LogTable

/-! ### Names of services -/

theorem ServiceKind.ofName?_name (k : ServiceKind) : ofName? k.name = some k := by cases k <;> rfl

theorem ServiceKind.name_injective {k k' : ServiceKind} (h : k.name = k'.name) : k = k' := by
  have hname := k.ofName?_name
  rw [h, k'.ofName?_name] at hname
  exact (Option.some.inj hname).symm

/-- The name of a kind is made of small letters. -/
theorem ServiceKind.isLower_name (k : ServiceKind) : ∀ c ∈ k.name.toList, c.isLower = true :=
  List.all_eq_true.mp (by cases k <;> rfl)

namespace ServiceIdentity

open Sql (IsPlain disjoint_pair_iff)

variable {s s' : ServiceIdentity}

theorem toList_logTableName (s : ServiceIdentity) :
    s.logTableName.toList = s.kind.name.toList ++ '_' :: Nat.toDigits 10 s.instanceId := by
  simp [logTableName, Nat.toList_repr]

/-- The name of a log says which service it is of. -/
theorem logTableName_injective (h : s.logTableName = s'.logTableName) :
    s.kind = s'.kind ∧ s.instanceId = s'.instanceId := by
  -- The name of the kind ends where the first underscore is.
  have hprefix : ∀ s : ServiceIdentity, s.logTableName.toList.takeWhile Char.isLower = s.kind.name.toList := by
    intro s
    rw [toList_logTableName, List.takeWhile_append_of_pos s.kind.isLower_name]
    exact List.append_nil _
  have hkind : s.kind = s'.kind := ServiceKind.name_injective (String.toList_inj.mp (by rw [← hprefix, ← hprefix, h]))
  refine ⟨hkind, Nat.repr_injective ?_⟩
  rw [logTableName, logTableName, hkind] at h
  exact (String.append_right_inj _).mp h

/-- It is its own form. -/
theorem isPlain_logTableName (s : ServiceIdentity) : IsPlain s.logTableName := by
  have hkind : s.kind.name.toList.all LogTable.isPart = true :=
    List.all_eq_true.mpr fun c hc => by rw [LogTable.isPart_eq, s.kind.isLower_name c hc]; rfl
  have hdigits : (Nat.toDigits 10 s.instanceId).all LogTable.isPart = true := by
    refine List.all_eq_true.mpr fun c hc => ?_
    rw [LogTable.isPart_eq, Nat.isDigit_of_mem_toDigits (by decide) (by decide) hc, Bool.or_true]
  rw [IsPlain, toList_logTableName, List.all_append, List.all_cons, hkind, hdigits]
  rfl

theorem isName_logTableName (h : s.instanceId < 2 ^ 64) : LogTable.isName s.logTableName.toList = true := by
  have hplain : s.logTableName.toList.all LogTable.isPart = true := isPlain_logTableName s
  have hkind : 0 < s.kind.name.toList.length ∧ s.kind.name.toList.length ≤ 12 := by
    cases s.kind <;> exact ⟨by decide, by decide⟩
  have hdigits : (Nat.toDigits 10 s.instanceId).length ≤ 20 :=
    (Nat.length_toDigits_le_iff (by decide) (by decide)).mpr (h.trans (by decide))
  obtain ⟨first, rest, hfirst⟩ := List.exists_cons_of_length_pos hkind.1
  have hletter := s.kind.isLower_name first (hfirst ▸ List.mem_cons_self)
  rw [hfirst, List.length_cons] at hkind
  rw [toList_logTableName, hfirst, List.cons_append, List.all_cons, Bool.and_eq_true] at hplain
  rw [toList_logTableName, hfirst, List.cons_append, LogTable.isName, LogTable.isStart_eq, hletter, hplain.2]
  simp only [Bool.true_or, Bool.true_and, decide_eq_true_eq, List.length_append, List.length_cons, LogTable.maxLength]
  omega

/-- The log of a service has the name that the service gives it. -/
theorem exists_ofName (h : s.instanceId < 2 ^ 64) :
    ∃ t, LogTable.ofName s.logTableName = .ok t ∧ t.process = s.logTableName := by
  have hform := LogTable.normalName_of_spells (LogTable.spells_refl _) (isPlain_logTableName s)
  exact ⟨⟨s.logTableName, isName_logTableName h⟩, LogTable.ofName_eq_ok_iff.mpr hform.symm, rfl⟩

/-- No service calls its log as the messages of a log are called. -/
theorem logTableName_ne_messages (s : ServiceIdentity) (t : LogTable) : s.logTableName ≠ t.messages := by
  intro h
  have hlast : s.logTableName.toList.getLast? = some 's' := by
    rw [h, LogTable.messages, String.toList_append, List.getLast?_append]
    rfl
  rw [toList_logTableName, List.append_cons, List.getLast?_append_of_ne_nil _ Nat.toDigits_ne_nil] at hlast
  have hdigit : 's'.isDigit = true :=
    Nat.isDigit_of_mem_toDigits (by decide) (by decide) (List.mem_of_getLast? hlast)
  cases hdigit

theorem disjoint_pair_logTableName {t t' : LogTable} (h : t.process = s.logTableName)
    (h' : t'.process = s'.logTableName) :
    t.pair.Disjoint t'.pair ↔ ¬ (s.kind = s'.kind ∧ s.instanceId = s'.instanceId) := by
  constructor
  · rintro hdisjoint ⟨hkind, hinstance⟩
    have hsame : t.process = t'.process := by
      rw [h, h', logTableName, logTableName, hkind, hinstance]
    exact hdisjoint List.mem_cons_self (hsame ▸ List.mem_cons_self)
  · intro hdifferent
    have hnames : t.process ≠ t'.process := fun heq => hdifferent (logTableName_injective (h ▸ h' ▸ heq))
    exact (disjoint_pair_iff hnames).mpr ⟨h' ▸ logTableName_ne_messages s' t, h ▸ logTableName_ne_messages s t'⟩

end ServiceIdentity

/-- A text names a log just if its form is a small letter or an underscore with at most 53 small letters, digits and
underscores behind it. The form is the name of the log, and so are the texts that spell it. Each service has a log of
its own under the name that it gives it, with both tables apart from those of any other service. -/
theorem logs_are_named_by_form :
    (∀ name : String,
      ((∃ t, LogTable.ofName name = .ok t) ↔
        ∃ first rest, Text.lower (Text.trim name.toList) = first :: rest ∧ (first.isLower = true ∨ first = '_') ∧
          rest.length ≤ 53 ∧ ∀ c ∈ rest, c.isLower = true ∨ c = '_' ∨ c.isDigit = true) ∧
      ∀ t, LogTable.ofName name = .ok t → t.process.toList = Text.lower (Text.trim name.toList) ∧
        ∀ text, LogTable.Spells text t.process → LogTable.ofName text = .ok t) ∧
    (∀ s : ServiceIdentity, s.instanceId < 2 ^ 64 →
      ∃ t, LogTable.ofName s.logTableName = .ok t ∧ t.process = s.logTableName) ∧
    ∀ (a b : Settings) (t t' : LogTable), LogTable.ofName a.service.logTableName = .ok t →
      LogTable.ofName b.service.logTableName = .ok t' →
        (t.pair.Disjoint t'.pair ↔
          ¬ (a.service.kind = b.service.kind ∧ a.service.instanceId = b.service.instanceId)) := by
  refine ⟨fun name => ⟨?_, fun t ht => ⟨?_, fun text htext => LogTable.ofName_of_spells htext⟩⟩,
    fun s hs => ServiceIdentity.exists_ofName hs, fun a b t t' ht ht' => ?_⟩
  · rw [LogTable.exists_ofName_iff, LogTable.isName_iff, LogTable.normalName, String.toList_ofList]
  · rw [LogTable.ofName_eq_ok_iff.mp ht, LogTable.normalName, String.toList_ofList]
  · have hname : ∀ {s : ServiceIdentity} {t : LogTable}, LogTable.ofName s.logTableName = .ok t →
        t.process = s.logTableName := fun h =>
      (LogTable.ofName_eq_ok_iff.mp h).trans
        (LogTable.normalName_of_spells (LogTable.spells_refl _) (ServiceIdentity.isPlain_logTableName _))
    exact ServiceIdentity.disjoint_pair_logTableName (hname ht) (hname ht')

/-- The Kelvin sign is a letter of a name in lower case, and the longest name of a service is short enough. -/
theorem logs_are_named_by_form_of_kelvin :
    let name := "\u2003\u212Aelvin_7\u3000"
    let t : LogTable := ⟨"kelvin_7", by decide⟩
    let a : Settings := { service := ⟨.interpolator, 18446744073709551615⟩ }
    let b : Settings := { service := ⟨.interpolator, 1844674407370955161⟩ }
    Text.lower (Text.trim name.toList) = 'k' :: "elvin_7".toList ∧ LogTable.ofName name = .ok t ∧
      LogTable.Spells "\tKelvin_7 " t.process ∧ LogTable.ofName "\tKelvin_7 " = .ok t ∧
      a.service.instanceId < 2 ^ 64 ∧ b.service.instanceId < 2 ^ 64 ∧
      ∃ t t', LogTable.ofName a.service.logTableName = .ok t ∧ LogTable.ofName b.service.logTableName = .ok t' ∧
        t.process = a.service.logTableName ∧ t'.process = b.service.logTableName ∧ t.pair.Disjoint t'.pair := by
  intro name t a b
  obtain ⟨hnames, hservices, hapart⟩ := logs_are_named_by_form
  have hform : Text.lower (Text.trim name.toList) = 'k' :: "elvin_7".toList := by decide +kernel
  have ht : LogTable.ofName name = .ok t := LogTable.ofName_eq_ok_iff.mpr (by decide +kernel)
  have hspells : LogTable.Spells "\tKelvin_7 " t.process :=
    ⟨['\t'], "Kelvin_7".toList, [' '], by decide +kernel, List.all_eq_true.mp rfl, by decide +kernel⟩
  have ha : a.service.instanceId < 2 ^ 64 := by decide
  have hb : b.service.instanceId < 2 ^ 64 := by decide
  obtain ⟨u, hu, hprocess⟩ := hservices a.service ha
  obtain ⟨u', hu', hprocess'⟩ := hservices b.service hb
  exact ⟨hform, ht, hspells, ((hnames name).2 t ht).2 _ hspells, ha, hb, u, u', hu, hu', hprocess, hprocess',
    (hapart a b u u' hu hu').mpr (by decide)⟩

end ProcessRuns
