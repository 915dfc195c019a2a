import HeadScout.Proofs.Text.Numeral
import HeadScout.Proofs.Text.Trimming
import HeadScout.Webhook.Config

/-!
# Which settings hold

A setting that is given wins over the variable of the environment, and the variable over the
default. A variable is checked even where nothing depends on it: if it is set to something that
names no setting, there are no settings at all, and the variable for empty pushes is reported before
the one for the delay.

What a variable may be set to is told here by the words that stand in it between blanks: a switch is
named by a few words in letters of any case, a delay by a numeral with or without a plus sign.

## Main definitions

* `WebhookConfig.NamesSwitch`, `WebhookConfig.NamesDelay` — what a text says about a setting
* `WebhookConfig.Reads` — the setting of a variable, or its default

## Main results

* `WebhookConfig.switch?_eq_some_iff`, `WebhookConfig.delay?_eq_some_iff` — how one variable is read
* `WebhookConfig.resolve_settings` — which settings hold, and which variable is reported
-/

namespace HeadScout.WebhookConfig

open Text (HoldsWord IsTight sameLetters)

/-- One word stands in the text, and it is one for this position of the switch. -/
def NamesSwitch (raw : String) (on : Bool) : Prop :=
  ∃ word, HoldsWord raw word ∧
    ∃ w ∈ if on then ["true", "1", "yes", "on"] else ["false", "0", "no", "off"],
      sameLetters word w = true

/-- One numeral stands in the text, with or without a plus sign, and it denotes this number. -/
def NamesDelay (raw : String) (seconds : UInt64) : Prop :=
  ∃ sign digits, HoldsWord raw (sign ++ digits) ∧ (sign = "" ∨ sign = "+") ∧
    Decimal.Denotes digits seconds.toNat

/-- The setting that a variable names, or the default if it is not set. -/
def Reads {α : Type} (default : α) (Names : String → α → Prop) (value : Option String) (a : α) :
    Prop :=
  match value with
  | none => a = default
  | some raw => Names raw a

/-- The variable is set to something that names no setting, and this is said of it. -/
def Refuses {α : Type} (variableName : String) (Names : String → α → Prop) (value : Option String)
    (e : ConfigError) : Prop :=
  ∃ raw, value = some raw ∧ (∀ a, ¬ Names raw a) ∧ e = ⟨variableName, raw⟩

/-! ### Switches -/

/-- A tight word of small letters is the one that stands in a text, in letters of any case, exactly
if it is what trimming and lowering leave of the text. -/
theorem lower_trim_mem_iff {raw : String} {words : List String}
    (h : ∀ w ∈ words, w.toList.map Char.toLower = w.toList ∧ IsTight w) :
    Text.lower (Text.trim raw) ∈ words ↔
      ∃ word, HoldsWord raw word ∧ ∃ w ∈ words, sameLetters word w = true := by
  have hlower : ∀ w ∈ words, Text.lower w = w := fun w hw => Text.lower_eq_self (h w hw).1
  constructor
  · intro hmem
    exact ⟨_, Text.holdsWord_trim raw, _, hmem, Text.sameLetters_iff.mpr (hlower _ hmem).symm⟩
  · rintro ⟨word, hword, w, hw, hsame⟩
    have hletters : Text.lower word = w := (Text.sameLetters_iff.mp hsame).trans (hlower w hw)
    have htight : IsTight word :=
      Text.isTight_of_isTight_lower (hletters.symm ▸ (h w hw).2)
    rw [Text.trim_eq_iff.mpr ⟨hword, htight⟩, hletters]
    exact hw

theorem lower_trim_mem_onWords_iff {raw : String} :
    Text.lower (Text.trim raw) ∈ onWords ↔ NamesSwitch raw true :=
  lower_trim_mem_iff (by decide)

theorem lower_trim_mem_offWords_iff {raw : String} :
    Text.lower (Text.trim raw) ∈ offWords ↔ NamesSwitch raw false :=
  lower_trim_mem_iff (by decide)

theorem switch?_eq_some_iff {raw : String} {on : Bool} :
    switch? raw = some on ↔ NamesSwitch raw on := by
  -- No word stands for both positions, so it does not matter which list is looked at first.
  have hdisjoint : ∀ w ∈ offWords, w ∉ onWords := by decide
  simp only [switch?]
  cases on with
  | true =>
    rw [← lower_trim_mem_onWords_iff]
    split_ifs with hon hoff <;> simp [hon]
  | false =>
    rw [← lower_trim_mem_offWords_iff]
    split_ifs with hon hoff
    · exact ⟨fun h => by simp at h, fun h => absurd hon (hdisjoint _ h)⟩
    · exact ⟨fun _ => hoff, fun _ => rfl⟩
    · exact ⟨fun h => by simp at h, fun h => absurd h hoff⟩

/-! ### Delays -/

theorem isBlank_of_isDigit {c : Char} (h : c.isDigit = true) : Text.isBlank c = false := by
  refine Bool.eq_false_iff.mpr fun hblank => ?_
  have hmem : c ∈ Text.blanks := List.contains_iff_mem.mp hblank
  fin_cases hmem <;> exact absurd h (by decide)

theorem isTight_numeral {sign digits : String} {n : Nat}
    (hsign : sign.toList.any Text.isBlank = false) (h : Decimal.Denotes digits n) :
    IsTight (sign ++ digits) := by
  have hmember : ∀ c ∈ sign.toList ++ digits.toList, Text.isBlank c = false := by
    intro c hc
    rcases List.mem_append.mp hc with hc | hc
    · exact Bool.eq_false_iff.mpr (List.any_eq_false.mp hsign c hc)
    · exact isBlank_of_isDigit (h.2.1 c hc)
  rw [IsTight, String.toList_append]
  exact ⟨fun c hc => hmember c (List.mem_of_mem_head? hc),
    fun c hc => hmember c (List.mem_of_getLast? hc)⟩

theorem any_isBlank_sign {sign : String} (h : sign = "" ∨ sign = "+") :
    sign.toList.any Text.isBlank = false := by
  rcases h with rfl | rfl <;> decide

/-- A tight word that stands in the text is the only one that can name a delay. -/
theorem namesDelay_iff_of_holdsWord {raw word : String} (hword : HoldsWord raw word)
    (htight : IsTight word) {seconds : UInt64} :
    NamesDelay raw seconds ↔ ∃ sign digits, word = sign ++ digits ∧ (sign = "" ∨ sign = "+") ∧
      Decimal.Denotes digits seconds.toNat := by
  constructor
  · -- A numeral is tight too, so both words are what trimming leaves of the text.
    rintro ⟨sign, digits, hheld, hsign, hdenotes⟩
    have htrim := Text.trim_eq_iff.mpr ⟨hheld, isTight_numeral (any_isBlank_sign hsign) hdenotes⟩
    exact ⟨sign, digits, (Text.trim_eq_iff.mpr ⟨hword, htight⟩).symm.trans htrim, hsign, hdenotes⟩
  · rintro ⟨sign, digits, rfl, hsign, hdenotes⟩
    exact ⟨sign, digits, hword, hsign, hdenotes⟩

theorem delay?_eq_some_iff {raw : String} {seconds : UInt64} :
    delay? raw = some seconds ↔ NamesDelay raw seconds := by
  rw [delay?, Option.map_eq_some_iff,
    namesDelay_iff_of_holdsWord (Text.holdsWord_trim raw) (Text.isTight_trim raw)]
  constructor
  · rintro ⟨n, hread, rfl⟩
    obtain ⟨hbound, hnumeral⟩ := Decimal.readUnsigned?_eq_some_iff.mp hread
    rw [UInt64.toNat_ofNat_of_lt' hbound]
    exact hnumeral
  · intro hnumeral
    exact ⟨seconds.toNat, Decimal.readUnsigned?_eq_some_iff.mpr ⟨seconds.toNat_lt_size, hnumeral⟩,
      UInt64.ofNat_toNat⟩

/-- A number in its decimal form is read as itself, and not at all if it is too great. -/
theorem namesDelay_repr_iff {raw : String} {n : Nat} (h : HoldsWord raw (Nat.repr n))
    {seconds : UInt64} : NamesDelay raw seconds ↔ seconds.toNat = n := by
  have hdenotes := Decimal.denotes_repr n
  have htight : IsTight (Nat.repr n) := by
    have hsigned : IsTight ("" ++ Nat.repr n) := isTight_numeral (by decide) hdenotes
    rw [String.empty_append] at hsigned
    exact hsigned
  rw [namesDelay_iff_of_holdsWord h htight]
  constructor
  · rintro ⟨sign, digits, hrepr, rfl | rfl, hdigits⟩
    · rw [String.empty_append] at hrepr
      exact Decimal.denotes_repr_iff.mp (hrepr ▸ hdigits)
    · -- The decimal form has no sign.
      rw [hrepr] at hdenotes
      exact absurd hdenotes (Decimal.not_denotes_of_mem (c := '+') (by simp) (by decide))
  · rintro rfl
    exact ⟨"", _, String.empty_append.symm, .inl rfl, hdenotes⟩

/-- No number with a minus sign is read. -/
theorem not_namesDelay_minus {raw digits : String} {n : Nat} (hdenotes : Decimal.Denotes digits n)
    (h : HoldsWord raw ("-" ++ digits)) (seconds : UInt64) : ¬ NamesDelay raw seconds := by
  rw [namesDelay_iff_of_holdsWord h (isTight_numeral (by decide) hdenotes)]
  rintro ⟨sign, digits', hminus, hsign, hdigits'⟩
  -- The minus is neither a sign that may stand there nor a digit.
  have hmem : '-' ∈ sign.toList ++ digits'.toList := by
    rw [← String.toList_append, ← hminus]
    simp
  rcases List.mem_append.mp hmem with hc | hc
  · rcases hsign with rfl | rfl
    · cases hc
    · exact absurd (List.mem_singleton.mp hc) (by decide)
  · exact Decimal.not_denotes_of_mem hc (by decide) hdigits'

/-! ### One variable -/

section

variable {α : Type} {variableName : String} {default : α} {read : String → Option α}
  {Names : String → α → Prop} {value : Option String}

theorem setting_eq_ok_iff (h : ∀ raw a, read raw = some a ↔ Names raw a) {a : α} :
    setting variableName default read value = .ok a ↔ Reads default Names value a := by
  cases value with
  | none => exact ⟨fun ha => (Except.ok.inj ha).symm, fun ha => congrArg Except.ok ha.symm⟩
  | some raw =>
    rw [Reads, ← h, setting]
    cases read raw <;> simp

theorem setting_eq_error_iff (h : ∀ raw a, read raw = some a ↔ Names raw a) {e : ConfigError} :
    setting variableName default read value = .error e ↔ Refuses variableName Names value e := by
  cases value with
  | none => simp [setting, Refuses]
  | some raw =>
    simp only [Refuses, ← h, setting]
    cases hread : read raw <;> simp [hread, eq_comm]

end

/-! ### Both variables -/

section

variable {lookup : String → Option String}

theorem scanSetting_eq_ok_iff {on : Bool} :
    setting scanVariable standard.scanOnEmptyChanges switch? (lookup scanVariable) = .ok on ↔
      Reads true NamesSwitch (lookup scanVariable) on :=
  setting_eq_ok_iff fun _ _ => switch?_eq_some_iff

theorem scanSetting_eq_error_iff {e : ConfigError} :
    setting scanVariable standard.scanOnEmptyChanges switch? (lookup scanVariable) = .error e ↔
      Refuses scanVariable NamesSwitch (lookup scanVariable) e :=
  setting_eq_error_iff fun _ _ => switch?_eq_some_iff

theorem delaySetting_eq_ok_iff {seconds : UInt64} :
    setting delayVariable standard.eventDelay delay? (lookup delayVariable) = .ok seconds ↔
      Reads 5 NamesDelay (lookup delayVariable) seconds :=
  setting_eq_ok_iff fun _ _ => delay?_eq_some_iff

theorem delaySetting_eq_error_iff {e : ConfigError} :
    setting delayVariable standard.eventDelay delay? (lookup delayVariable) = .error e ↔
      Refuses delayVariable NamesDelay (lookup delayVariable) e :=
  setting_eq_error_iff fun _ _ => delay?_eq_some_iff

theorem ofEnvironment_eq_ok_iff {config : WebhookConfig} :
    ofEnvironment lookup = .ok config ↔
      Reads true NamesSwitch (lookup scanVariable) config.scanOnEmptyChanges ∧
        Reads 5 NamesDelay (lookup delayVariable) config.eventDelay := by
  rw [← scanSetting_eq_ok_iff, ← delaySetting_eq_ok_iff, ofEnvironment]
  obtain ⟨on, seconds⟩ := config
  cases setting scanVariable standard.scanOnEmptyChanges switch? (lookup scanVariable) <;>
    cases setting delayVariable standard.eventDelay delay? (lookup delayVariable) <;>
    simp [bind, Except.bind, pure, Except.pure]

/-- The variable for the delay is reported only if the other one can be used. -/
theorem ofEnvironment_eq_error_iff {e : ConfigError} :
    ofEnvironment lookup = .error e ↔
      Refuses scanVariable NamesSwitch (lookup scanVariable) e ∨
      (∃ on, Reads true NamesSwitch (lookup scanVariable) on) ∧
        Refuses delayVariable NamesDelay (lookup delayVariable) e := by
  simp only [← scanSetting_eq_ok_iff, ← scanSetting_eq_error_iff, ← delaySetting_eq_error_iff]
  rw [ofEnvironment]
  cases setting scanVariable standard.scanOnEmptyChanges switch? (lookup scanVariable) <;>
    cases setting delayVariable standard.eventDelay delay? (lookup delayVariable) <;>
    simp [bind, Except.bind, pure, Except.pure]

end

section

variable {lookup : String → Option String} {scan : Option Bool} {delay : Option UInt64}

theorem resolve_eq_ok_iff {config : WebhookConfig} :
    resolve lookup scan delay = .ok config ↔ ∃ read, ofEnvironment lookup = .ok read ∧
      config = ⟨scan.getD read.scanOnEmptyChanges, delay.getD read.eventDelay⟩ := by
  rw [resolve]
  cases ofEnvironment lookup <;> simp [bind, Except.bind, pure, Except.pure, eq_comm]

/-- What is given cannot hide a variable that is wrong. -/
theorem resolve_eq_error_iff {e : ConfigError} :
    resolve lookup scan delay = .error e ↔ ofEnvironment lookup = .error e := by
  rw [resolve]
  cases ofEnvironment lookup <;> simp [bind, Except.bind, pure, Except.pure]

end

/-- What is given wins over the variable, and the variable over the default. An unusable variable is
an error whatever is given, and the one for empty pushes is reported first. A numeral is read as the
number it denotes and never wraps around, and no number with a minus sign is read. -/
theorem resolve_settings (lookup : String → Option String) (scan : Option Bool)
    (delay : Option UInt64) :
    (∀ config, resolve lookup scan delay = .ok config ↔
      ∃ on seconds, Reads true NamesSwitch (lookup scanVariable) on ∧
        Reads 5 NamesDelay (lookup delayVariable) seconds ∧
        config = ⟨scan.getD on, delay.getD seconds⟩) ∧
    (∀ e, resolve lookup scan delay = .error e ↔
      Refuses scanVariable NamesSwitch (lookup scanVariable) e ∨
      (∃ on, Reads true NamesSwitch (lookup scanVariable) on) ∧
        Refuses delayVariable NamesDelay (lookup delayVariable) e) ∧
    (∀ raw n, HoldsWord raw (Nat.repr n) →
      ∀ seconds, NamesDelay raw seconds ↔ seconds.toNat = n) ∧
    ∀ raw digits n, Decimal.Denotes digits n → HoldsWord raw ("-" ++ digits) →
      ∀ seconds, ¬ NamesDelay raw seconds := by
  refine ⟨?_, ?_, fun raw n h seconds => namesDelay_repr_iff h,
    fun raw digits n => not_namesDelay_minus⟩
  · intro config
    rw [resolve_eq_ok_iff]
    simp only [ofEnvironment_eq_ok_iff]
    constructor
    · rintro ⟨⟨on, seconds⟩, ⟨hon, hseconds⟩, rfl⟩
      exact ⟨on, seconds, hon, hseconds, rfl⟩
    · rintro ⟨on, seconds, hon, hseconds, rfl⟩
      exact ⟨⟨on, seconds⟩, ⟨hon, hseconds⟩, rfl⟩
  · intro e
    rw [resolve_eq_error_iff]
    exact ofEnvironment_eq_error_iff

/-- A delay that fits is read between blanks, with a sign and zeros in front; the first one that
does not fit and a negative one are refused. -/
theorem resolve_settings_padded :
    HoldsWord " 18446744073709551616 " (Nat.repr 18446744073709551616) ∧
      Decimal.Denotes "05" 5 ∧ HoldsWord "\t-05" ("-" ++ "05") ∧
      resolve (fun name => if name = delayVariable then some " +05\n" else none) (some false) none =
        .ok ⟨false, 5⟩ ∧
      (∀ seconds, ¬ NamesDelay " 18446744073709551616 " seconds) ∧
      ∀ seconds, ¬ NamesDelay "\t-05" seconds := by
  have hgreat : HoldsWord " 18446744073709551616 " (Nat.repr 18446744073709551616) :=
    .of_all " " " " (by decide) (by decide) (by decide)
  have hfive : Decimal.Denotes "05" 5 := by decide
  have hminus : HoldsWord "\t-05" ("-" ++ "05") :=
    .of_all "\t" "" (by decide) (by decide) (by decide)
  obtain ⟨hok, -, hrepr, hnegative⟩ := resolve_settings
    (fun name => if name = delayVariable then some " +05\n" else none) (some false) none
  refine ⟨hgreat, hfive, hminus, (hok _).mpr ⟨true, 5, rfl, ?_, rfl⟩, ?_,
    hnegative _ _ _ hfive hminus⟩
  · have hplus : HoldsWord " +05\n" ("+" ++ "05") :=
      .of_all " " "\n" (by decide) (by decide) (by decide)
    exact ⟨"+", "05", hplus, .inr rfl, hfive⟩
  · -- No number of seconds is as great as this one.
    intro seconds hnames
    have hsize := seconds.toNat_lt_size
    rw [(hrepr _ _ hgreat seconds).mp hnames] at hsize
    exact absurd hsize (by decide)

end HeadScout.WebhookConfig
