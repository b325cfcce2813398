import Abora.Config.Durations
import Abora.Config.Windows

/-!
# What a rejected configuration is told

The rules a configuration is checked against, each with the heading its error texts start with: a
text *names* a rule if it starts with the rule's heading, index included (`heading_unique`: no text
names two windows' rules). Acceptance is exactly "no rule is violated".

The report is not complete. A clock that does not parse ends the checks of its window, so a second
mistake in the same window stays unreported until the first is repaired: `report_complete_iff`.

Two relations between a window and its rules carry this. `Violated` is the rule as the documentation
states it; `Reported` is when the loop body pushes an error for it. The report of one window is the
texts of its reported rules (`windowErrors_reported`, `exists_windowErrors`), and a window hides an
error exactly when the two relations differ there (`hidesError_iff`). Outside the windows every rule
is checked whatever the others say, so there the two are the same.

That a missing text is really missing needs the headings: a text about another rule, or about
another window, must not be taken for one about this. Most of the module is this one point.
-/

namespace Abora

open Lib Lib.Text Update

/-- The five rules of one window. -/
inductive WindowRule where
  | days | start | stop
  /-- The end is after the start, if both are clocks. -/
  | order
  | maxDuration
  deriving DecidableEq, Repr

/-- All rules, those of the windows with the window's index. The source counts windows from zero. -/
inductive Rule where
  | hostname | applyResultFile | stateFile | checkInterval
  | window (i : Nat) (rule : WindowRule)
  | listenAddr | basePath | maxPayload | requestTimeout
  deriving DecidableEq, Repr

/-- No time of day is written like this. -/
def BadClock (s : String) : Prop := ∀ minutes, ¬ ClockText s minutes

/-- What the documentation asks of a window. `order` is about the two clocks, so it says nothing
when one of them is none. -/
def WindowRule.Violated (w : MaintenanceWindow) : WindowRule → Prop
  | .days => w.days = []
  | .start => BadClock w.start
  | .stop => BadClock w.stop
  | .order => ∃ start stop, ClockText w.start start ∧ ClockText w.stop stop ∧ stop ≤ start
  | .maxDuration => w.maxDurationMinutes = some 0

/-- The rules, as the documentation has them. -/
def Rule.Violated (config : Config) : Rule → Prop
  | .hostname => ∃ h, config.system.hostname = some h ∧ ¬ ValidHostname h
  | .applyResultFile => config.updates.applyResultFile.isAbsolute = false
  | .stateFile => config.updates.stateFile.isAbsolute = false
  | .checkInterval => ¬ ∃ number mult, DurationText config.updates.checkInterval number mult ∧
      0 < number ∧ number < 2 ^ 64
  | .window i rule => ∃ w, config.maintenance.windows[i]? = some w ∧ rule.Violated w
  | .listenAddr => parseSocketAddr config.remote.listenAddr = none
  | .basePath => ¬ ValidBasePath config.api.basePath
  | .maxPayload => config.api.maxPayloadBytes = 0
  | .requestTimeout => config.api.requestTimeoutSecs = 0

/-- What a window's error says right after the index. -/
def WindowRule.words : WindowRule → String
  | .days => " must define at least one day"
  | .start => " start `"
  | .stop => " end `"
  | .order => ": end ("
  | .maxDuration => ": max_duration_minutes must be greater than zero"

/-- What an error about the rule starts with. -/
def Rule.heading : Rule → String
  | .hostname => "[system] hostname "
  | .applyResultFile => "[updates] apply_result_file "
  | .stateFile => "[updates] state_file "
  | .checkInterval => "[updates] check_interval "
  | .window i rule => s!"[maintenance] window #{i}{rule.words}"
  | .listenAddr => "[remote] listen_addr "
  | .basePath => "[api] base_path "
  | .maxPayload => "[api] max_payload_bytes"
  | .requestTimeout => "[api] request_timeout_secs"

/-- The text is about this rule, and about this window: it starts with the heading, up to where the
values of the configuration begin. -/
def Rule.Names (rule : Rule) (text : String) : Prop := rule.heading.toList <+: text.toList

/-! ## Headings tell the rules apart -/

theorem toString_index_inj {i j : Nat} (h : (toString i).toList = (toString j).toList) : i = j := by
  have hi : (toString i).toList = Nat.toDigits 10 i := Nat.toList_repr
  have hj : (toString j).toList = Nat.toDigits 10 j := Nat.toList_repr
  rw [hi, hj] at h
  rw [← Nat.ofDigitChars_toDigits (b := 10) (n := i) (by decide) (by decide), h,
    Nat.ofDigitChars_toDigits (by decide) (by decide)]

theorem toString_index_isDigit {i : Nat} : ∀ c ∈ (toString i).toList, c.isDigit = true := by
  intro c hc
  have hi : (toString i).toList = Nat.toDigits 10 i := Nat.toList_repr
  rw [hi] at hc
  exact Nat.isDigit_of_mem_toDigits (by decide) (by decide) hc

theorem window_heading_toList (i : Nat) (rule : WindowRule) :
    (Rule.window i rule).heading.toList =
      "[maintenance] window #".toList ++ ((toString i).toList ++ rule.words.toList) := by
  show (("[maintenance] window #" ++ toString i) ++ rule.words).toList = _
  rw [String.toList_append, String.toList_append, List.append_assoc]

theorem words_spec (rule : WindowRule) :
    ∃ c rest, rule.words.toList = c :: rest ∧ c.isDigit = false := by
  cases rule
  · exact ⟨' ', _, rfl, by decide⟩
  · exact ⟨' ', _, rfl, by decide⟩
  · exact ⟨' ', _, rfl, by decide⟩
  · exact ⟨':', _, rfl, by decide⟩
  · exact ⟨':', _, rfl, by decide⟩

/-- The first three characters tell what a rule says, so no rule's words are the beginning of
another's. -/
theorem words_take_inj {r t : WindowRule}
    (h : r.words.toList.take 3 = t.words.toList.take 3) : r = t := by
  cases r <;> cases t <;> simp [WindowRule.words] at h ⊢

theorem take_eq_of_prefix {α : Type} {l m : List α} {n : Nat} (h : l <+: m) (hn : n ≤ l.length) :
    m.take n = l.take n := by
  obtain ⟨rest, rfl⟩ := h
  exact List.take_append_of_le_length hn

/-- **A text names the rule of one window at most.** The index ends where the digits do, and the
words after it differ within three characters. -/
theorem heading_unique {i j : Nat} {r t : WindowRule} {text : String}
    (hi : (Rule.window i r).Names text) (hj : (Rule.window j t).Names text) :
    i = j ∧ r = t := by
  obtain ⟨u, hu⟩ := hi
  obtain ⟨v, hv⟩ := hj
  rw [window_heading_toList] at hu hv
  have hsame : (toString i).toList ++ (r.words.toList ++ u) =
      (toString j).toList ++ (t.words.toList ++ v) := by
    have h := hu.trans hv.symm
    simpa only [List.append_assoc, List.append_cancel_left_eq] using h
  obtain ⟨c, rest, hc, hcd⟩ := words_spec r
  obtain ⟨d, rest', hd, hdd⟩ := words_spec t
  have hstop : ∀ {c : Char}, c.isDigit = false → ¬ c.isDigit = true := fun h => by simp [h]
  have hindex : (toString i).toList = (toString j).toList := by
    have h := congrArg (List.takeWhile Char.isDigit) hsame
    rw [hc, hd, List.takeWhile_append_of_pos toString_index_isDigit,
      List.takeWhile_append_of_pos toString_index_isDigit, List.cons_append, List.cons_append,
      List.takeWhile_cons_of_neg (hstop hcd), List.takeWhile_cons_of_neg (hstop hdd),
      List.append_nil, List.append_nil] at h
    exact h
  refine ⟨toString_index_inj hindex, words_take_inj ?_⟩
  rw [hindex, List.append_cancel_left_eq] at hsame
  have hlen : ∀ rule : WindowRule, 3 ≤ rule.words.toList.length := by
    intro rule
    cases rule <;> decide
  rw [← take_eq_of_prefix (List.prefix_append r.words.toList u) (hlen r), hsame,
    take_eq_of_prefix (List.prefix_append t.words.toList v) (hlen t)]

/-! ## What one window is told -/

theorem not_badClock_iff {s : String} : ¬ BadClock s ↔ ∃ minutes, parseClock s = .ok minutes := by
  simp only [BadClock, not_forall, not_not, parseClock_ok_iff]

theorem badClock_iff {s : String} : BadClock s ↔ ∃ e, parseClock s = .error e := by
  simp only [BadClock, ← parseClock_ok_iff]
  cases parseClock s <;> simp

/-- What the loop body pushes for a rule; `e` is what was wrong with the clock, and is not used by
the rules that are about no clock. -/
def WindowRule.text (i : Nat) (w : MaintenanceWindow) (e : String) : WindowRule → String
  | .days => s!"[maintenance] window #{i} must define at least one day"
  | .start => s!"[maintenance] window #{i} start `{w.start}` is not HH:MM: {e}"
  | .stop => s!"[maintenance] window #{i} end `{w.stop}` is not HH:MM: {e}"
  | .order => s!"[maintenance] window #{i}: end ({w.stop}) must be after start ({w.start})"
  | .maxDuration =>
    s!"[maintenance] window #{i}: max_duration_minutes must be greater than zero"

/-- And when it does: only the days are looked at whatever else is wrong. -/
def WindowRule.Reported (w : MaintenanceWindow) : WindowRule → Prop
  | .days => w.days = []
  | .start => BadClock w.start
  | .stop => ¬ BadClock w.start ∧ BadClock w.stop
  | .order => ∃ start stop, ClockText w.start start ∧ ClockText w.stop stop ∧ stop ≤ start
  | .maxDuration => ¬ BadClock w.start ∧ ¬ BadClock w.stop ∧ w.maxDurationMinutes = some 0

theorem names_heading (rule : Rule) : rule.Names rule.heading := List.prefix_refl _

theorem names_of_toList {rule : Rule} {text : String} (head : String) (rest : Chars)
    (hhead : rule.heading = head) (h : text.toList = head.toList ++ rest) : rule.Names text := by
  rw [← hhead] at h
  exact ⟨rest, h.symm⟩

theorem Rule.Names.append {rule : Rule} {text : String} (h : rule.Names text) (more : String) :
    rule.Names (text ++ more) := by
  unfold Rule.Names
  rw [String.toList_append]
  exact h.trans (List.prefix_append _ _)

theorem text_names (i : Nat) (w : MaintenanceWindow) (e : String) (rule : WindowRule) :
    (Rule.window i rule).Names (rule.text i w e) := by
  have h := names_heading (.window i rule)
  cases rule with
  | days => exact h
  | start => exact ((h.append _).append _).append _
  | stop => exact ((h.append _).append _).append _
  | order => exact (((h.append _).append _).append _).append _
  | maxDuration => exact h

/-- The loop body, with the rules for the texts. The two nested matches are the two ways a window's
checks end early. -/
theorem windowErrors_eq (i : Nat) (w : MaintenanceWindow) :
    windowErrors i w =
      (if w.days = [] then [WindowRule.days.text i w ""] else []) ++
        match parseClock w.start with
        | .error e => [WindowRule.start.text i w e]
        | .ok start =>
          match parseClock w.stop with
          | .error e => [WindowRule.stop.text i w e]
          | .ok stop =>
            (if stop ≤ start then [WindowRule.order.text i w ""] else []) ++
              (if w.maxDurationMinutes = some 0 then [WindowRule.maxDuration.text i w ""]
                else []) := rfl

/-- **Every error of a window** is pushed for one of its rules, and only for one that is violated
and not hidden. -/
theorem windowErrors_reported {i : Nat} {w : MaintenanceWindow} {text : String}
    (h : text ∈ windowErrors i w) :
    ∃ rule : WindowRule, rule.Reported w ∧ (Rule.window i rule).Names text := by
  have hrule : ∃ rule e, WindowRule.Reported w rule ∧ text = rule.text i w e := by
    rw [windowErrors_eq, List.mem_append] at h
    rcases h with h | h
    · split at h
      · rename_i hdays
        exact ⟨.days, "", hdays, List.mem_singleton.mp h⟩
      · cases h
    cases hstart : parseClock w.start with
    | error e =>
      rw [hstart] at h
      exact ⟨.start, e, badClock_iff.mpr ⟨e, hstart⟩, List.mem_singleton.mp h⟩
    | ok start =>
      have hgood : ¬ BadClock w.start := fun hbad => hbad start (parseClock_ok_iff.mp hstart)
      cases hstop : parseClock w.stop with
      | error e =>
        simp only [hstart, hstop] at h
        exact ⟨.stop, e, ⟨hgood, badClock_iff.mpr ⟨e, hstop⟩⟩, List.mem_singleton.mp h⟩
      | ok stop =>
        have hgood' : ¬ BadClock w.stop := fun hbad => hbad stop (parseClock_ok_iff.mp hstop)
        simp only [hstart, hstop, List.mem_append] at h
        rcases h with h | h
        · split at h
          · rename_i hle
            exact ⟨.order, "", ⟨start, stop, parseClock_ok_iff.mp hstart,
              parseClock_ok_iff.mp hstop, hle⟩, List.mem_singleton.mp h⟩
          · cases h
        · split at h
          · rename_i hmax
            exact ⟨.maxDuration, "", ⟨hgood, hgood', hmax⟩, List.mem_singleton.mp h⟩
          · cases h
  obtain ⟨rule, e, hreported, rfl⟩ := hrule
  exact ⟨rule, hreported, text_names i w e rule⟩

/-- And every rule that is reported has its error. -/
theorem exists_windowErrors (i : Nat) {w : MaintenanceWindow} {rule : WindowRule}
    (h : rule.Reported w) : ∃ text ∈ windowErrors i w, (Rule.window i rule).Names text := by
  have hmem : ∃ e, rule.text i w e ∈ windowErrors i w := by
    rw [windowErrors_eq]
    cases rule with
    | days =>
      have hdays : w.days = [] := h
      refine ⟨"", List.mem_append_left _ ?_⟩
      rw [if_pos hdays]
      exact List.mem_singleton.mpr rfl
    | start =>
      obtain ⟨e, he⟩ := badClock_iff.mp h
      refine ⟨e, List.mem_append_right _ ?_⟩
      rw [he]
      exact List.mem_singleton.mpr rfl
    | stop =>
      obtain ⟨start, hstart⟩ := not_badClock_iff.mp h.1
      obtain ⟨e, he⟩ := badClock_iff.mp h.2
      refine ⟨e, List.mem_append_right _ ?_⟩
      simp only [hstart, he]
      exact List.mem_singleton.mpr rfl
    | order =>
      obtain ⟨start, stop, hstart, hstop, hle⟩ := h
      refine ⟨"", List.mem_append_right _ ?_⟩
      simp only [parseClock_ok_iff.mpr hstart, parseClock_ok_iff.mpr hstop, if_pos hle]
      exact List.mem_append_left _ (List.mem_singleton.mpr rfl)
    | maxDuration =>
      obtain ⟨start, hstart⟩ := not_badClock_iff.mp h.1
      obtain ⟨stop, hstop⟩ := not_badClock_iff.mp h.2.1
      refine ⟨"", List.mem_append_right _ ?_⟩
      simp only [hstart, hstop, if_pos h.2.2]
      exact List.mem_append_right _ (List.mem_singleton.mpr rfl)
  obtain ⟨e, he⟩ := hmem
  exact ⟨_, he, text_names i w e rule⟩

/-! ## The whole report -/

/-- The part of the list that a rule is checked in. For a window it is all that the window is
told. -/
def Rule.section (config : Config) : Rule → List String
  | .hostname => hostnameErrors config.system.hostname
  | .applyResultFile => absoluteErrors "apply_result_file" config.updates.applyResultFile
  | .stateFile => absoluteErrors "state_file" config.updates.stateFile
  | .checkInterval => intervalErrors config.updates.checkInterval
  | .window i _ => (config.maintenance.windows[i]?.map (windowErrors i)).getD []
  | .listenAddr => listenAddrErrors config.remote.listenAddr
  | .basePath => basePathErrors config.api.basePath
  | .maxPayload => limitErrors "max_payload_bytes" config.api.maxPayloadBytes
  | .requestTimeout => limitErrors "request_timeout_secs" config.api.requestTimeoutSecs

/-- A rule that is not about a window: its part of the list is its own. -/
def Rule.Plain : Rule → Prop
  | .window _ _ => False
  | _ => True

theorem Rule.plain_or_window (rule : Rule) :
    rule.Plain ∨ ∃ i windowRule, rule = .window i windowRule := by
  cases rule with
  | window i windowRule => exact .inr ⟨i, windowRule, rfl⟩
  | _ => exact .inl trivial

/-- A text of the report is from the section of a plain rule or from one of the windows. -/
theorem mem_errors {config : Config} {text : String} :
    text ∈ config.errors ↔
      (∃ rule : Rule, rule.Plain ∧ text ∈ rule.section config) ∨
        ∃ i w, config.maintenance.windows[i]? = some w ∧ text ∈ windowErrors i w := by
  rw [← mem_validateWindows]
  unfold Config.errors
  simp only [List.mem_append]
  constructor
  · rintro ((((((((h | h) | h) | h) | h) | h) | h) | h) | h)
    · exact .inl ⟨.hostname, trivial, h⟩
    · exact .inl ⟨.applyResultFile, trivial, h⟩
    · exact .inl ⟨.stateFile, trivial, h⟩
    · exact .inl ⟨.checkInterval, trivial, h⟩
    · exact .inr h
    · exact .inl ⟨.listenAddr, trivial, h⟩
    · exact .inl ⟨.basePath, trivial, h⟩
    · exact .inl ⟨.maxPayload, trivial, h⟩
    · exact .inl ⟨.requestTimeout, trivial, h⟩
  · rintro (⟨rule, hplain, h⟩ | h)
    · cases rule <;> simp only [Rule.section] at h <;> first | exact hplain.elim | simp [h]
    · simp [h]

/-- The interval rule is what `parse_duration` of a release build answers. A product that wraps is
no error. -/
theorem intervalErrors_iff {interval : String} :
    intervalErrors interval = [] ↔
      ∃ number mult, DurationText interval number mult ∧ 0 < number ∧ number < 2 ^ 64 := by
  rw [intervalErrors_eq_nil_iff]
  have hparse := parseDurationIn_release interval
  rcases parseDurationIn_cases .release interval with
    ⟨number, mult, htext, hpos, hlt, h⟩ | ⟨hnot, e, h⟩
  · refine iff_of_true ⟨number * mult % 2 ^ 64, ?_⟩ ⟨number, mult, htext, hpos, hlt⟩
    rw [h] at hparse
    exact (Option.some.inj hparse).symm
  · rw [h, Option.some.injEq] at hparse
    rw [← hparse]
    refine iff_of_false (fun ⟨secs, hok⟩ => by cases hok) ?_
    intro ⟨number, mult, htext, hpos, hlt⟩
    rcases hnot number mult htext with hzero | hbig <;> omega

theorem section_eq_nil_iff {config : Config} {rule : Rule} (hplain : rule.Plain) :
    rule.section config = [] ↔ ¬ rule.Violated config := by
  cases rule with
  | hostname => simp [Rule.section, Rule.Violated, hostnameErrors_eq_nil_iff]
  | applyResultFile => simp [Rule.section, Rule.Violated, absoluteErrors_eq_nil_iff]
  | stateFile => simp [Rule.section, Rule.Violated, absoluteErrors_eq_nil_iff]
  | checkInterval => simp only [Rule.section, Rule.Violated, intervalErrors_iff, not_not]
  | window i rule => exact hplain.elim
  | listenAddr =>
    simp only [Rule.section, Rule.Violated, listenAddrErrors_eq_nil_iff,
      ← Option.ne_none_iff_exists', ne_eq]
  | basePath => simp only [Rule.section, Rule.Violated, basePathErrors_eq_nil_iff, not_not]
  | maxPayload => exact limitErrors_eq_nil_iff
  | requestTimeout => exact limitErrors_eq_nil_iff

theorem absoluteErrors_names {rule : Rule} {key text : String} {path : PathBuf}
    (hkey : rule.Names ("[updates] " ++ key ++ " `")) (h : text ∈ absoluteErrors key path) :
    rule.Names text := by
  unfold absoluteErrors at h
  split at h
  · cases h
  · rw [List.mem_singleton.mp h]
    exact (hkey.append _).append _

theorem limitErrors_names {rule : Rule} {key text : String} {limit : Nat}
    (hkey : rule.Names ("[api] " ++ key)) (h : text ∈ limitErrors key limit) :
    rule.Names text := by
  unfold limitErrors at h
  split at h
  · rw [List.mem_singleton.mp h]
    exact hkey.append _
  · cases h

/-- Every text outside the windows names the rule it is pushed for. A section with two different
texts begins both with the same heading. -/
theorem section_names {config : Config} {rule : Rule} (hplain : rule.Plain) {text : String}
    (h : text ∈ rule.section config) : rule.Names text := by
  -- one case per rule: an error of its section begins with its heading, up to the first character
  -- that is not the same for all
  cases rule with
  | hostname =>
    simp only [Rule.section, hostnameErrors] at h
    split at h
    · cases h
    split at h
    · rw [List.mem_singleton.mp h]
      exact names_of_toList "[system] hostname " "must not be empty".toList rfl (by simp)
    split at h
    · rw [List.mem_singleton.mp h]
      have hquote : Rule.hostname.Names "[system] hostname `" :=
        names_of_toList "[system] hostname " ['`'] rfl (by simp)
      exact (hquote.append _).append _
    · cases h
  | applyResultFile =>
    exact absoluteErrors_names
      (names_of_toList "[updates] apply_result_file " ['`'] rfl (by simp)) h
  | stateFile =>
    exact absoluteErrors_names (names_of_toList "[updates] state_file " ['`'] rfl (by simp)) h
  | checkInterval =>
    simp only [Rule.section, intervalErrors] at h
    split at h
    · cases h
    · rw [List.mem_singleton.mp h]
      have hquote : Rule.checkInterval.Names "[updates] check_interval `" :=
        names_of_toList "[updates] check_interval " ['`'] rfl (by simp)
      exact ((hquote.append _).append _).append _
  | window i rule => exact hplain.elim
  | listenAddr =>
    simp only [Rule.section, listenAddrErrors] at h
    split at h
    · cases h
    · rw [List.mem_singleton.mp h]
      have hquote : Rule.listenAddr.Names "[remote] listen_addr `" :=
        names_of_toList "[remote] listen_addr " ['`'] rfl (by simp)
      exact (hquote.append _).append _
  | basePath =>
    simp only [Rule.section, basePathErrors] at h
    split at h
    · rw [List.mem_singleton.mp h]
      have hquote : Rule.basePath.Names "[api] base_path `" :=
        names_of_toList "[api] base_path " ['`'] rfl (by simp)
      exact (hquote.append _).append _
    split at h
    · rw [List.mem_singleton.mp h]
      exact names_of_toList "[api] base_path " "must not contain leading/trailing whitespace".toList
        rfl (by simp)
    · cases h
  | maxPayload =>
    exact limitErrors_names (names_of_toList "[api] max_payload_bytes" [] rfl (by simp)) h
  | requestTimeout =>
    exact limitErrors_names (names_of_toList "[api] request_timeout_secs" [] rfl (by simp)) h

theorem heading_section (rule : Rule) :
    (∃ rest, rule.heading.toList = '[' :: 'm' :: rest ∧ ¬ rule.Plain) ∨
      ∃ c rest, rule.heading.toList = '[' :: c :: rest ∧ c ≠ 'm' ∧ rule.Plain := by
  cases rule with
  | hostname => exact .inr ⟨'s', _, rfl, by decide, trivial⟩
  | applyResultFile => exact .inr ⟨'u', _, rfl, by decide, trivial⟩
  | stateFile => exact .inr ⟨'u', _, rfl, by decide, trivial⟩
  | checkInterval => exact .inr ⟨'u', _, rfl, by decide, trivial⟩
  | window i rule =>
    refine .inl ⟨"aintenance] window #".toList ++ ((toString i).toList ++ rule.words.toList), ?_,
      fun h => h⟩
    rw [window_heading_toList]
    rfl
  | listenAddr => exact .inr ⟨'r', _, rfl, by decide, trivial⟩
  | basePath => exact .inr ⟨'a', _, rfl, by decide, trivial⟩
  | maxPayload => exact .inr ⟨'a', _, rfl, by decide, trivial⟩
  | requestTimeout => exact .inr ⟨'a', _, rfl, by decide, trivial⟩

/-- No text is both about a window and about something else: the headings of windows start with
`[m`, and no other does. -/
theorem plain_of_names {rule other : Rule} {text : String} (h : rule.Names text)
    (h' : other.Names text) (hplain : other.Plain) : rule.Plain := by
  obtain ⟨u, hu⟩ := h
  obtain ⟨v, hv⟩ := h'
  have hsame : rule.heading.toList ++ u = other.heading.toList ++ v := hu.trans hv.symm
  rcases heading_section rule with ⟨rest, hrule, -⟩ | ⟨c, rest, -, -, hgood⟩
  · rcases heading_section other with ⟨rest', -, hbad⟩ | ⟨d, rest', hother, hd, -⟩
    · exact absurd hplain hbad
    · rw [hrule, hother] at hsame
      simp only [List.cons_append, List.cons.injEq, true_and] at hsame
      exact absurd hsame.1.symm hd
  · exact hgood

/-- The rules that get an error: all but what a bad clock hides. -/
def Rule.Reported (config : Config) : Rule → Prop
  | .window i rule => ∃ w, config.maintenance.windows[i]? = some w ∧ rule.Reported w
  | rule => rule.Violated config

theorem exists_error_of_reported {config : Config} {rule : Rule} (h : rule.Reported config) :
    ∃ text ∈ config.errors, rule.Names text := by
  have hplain : rule.Plain → rule.Violated config → ∃ text ∈ config.errors, rule.Names text := by
    intro hplain hviolated
    have hne : rule.section config ≠ [] := fun hnil =>
      (section_eq_nil_iff hplain).mp hnil hviolated
    obtain ⟨text, ht⟩ := List.exists_mem_of_ne_nil _ hne
    exact ⟨text, mem_errors.mpr (.inl ⟨rule, hplain, ht⟩), section_names hplain ht⟩
  cases rule with
  | window i rule =>
    obtain ⟨w, hw, hreported⟩ := h
    obtain ⟨text, ht, hnames⟩ := exists_windowErrors i hreported
    exact ⟨text, mem_errors.mpr (.inr ⟨i, w, hw, ht⟩), hnames⟩
  | _ => exact hplain trivial h

/-- An error that names a window's rule was pushed for it. This is where `heading_unique` is needed:
it could have been pushed by another rule with a similar text. -/
theorem reported_of_names {config : Config} {i : Nat} {rule : WindowRule} {text : String}
    (ht : text ∈ config.errors) (h : (Rule.window i rule).Names text) :
    (Rule.window i rule).Reported config := by
  rcases mem_errors.mp ht with ⟨other, hplain, hmem⟩ | ⟨j, w, hw, hmem⟩
  · exact (plain_of_names h (section_names hplain hmem) hplain).elim
  · obtain ⟨rule', hreported, hnames⟩ := windowErrors_reported hmem
    obtain ⟨rfl, rfl⟩ := heading_unique h hnames
    exact ⟨w, hw, hreported⟩

/-- A rejected configuration is told of every rule it violates, and an accepted one violates
none. -/
def Complete (config : Config) : Prop :=
  (config.validate = .ok () ↔ ∀ rule : Rule, ¬ rule.Violated config) ∧
    ∀ errors, config.validate = .error errors →
      ∀ rule : Rule, rule.Violated config → ∃ text ∈ errors, rule.Names text

/-- Two of the start, the end and the cap of a window are wrong, one of them a clock. The clock that
is looked at first hides the other mistake. -/
def HidesError (w : MaintenanceWindow) : Prop :=
  (BadClock w.start ∧ BadClock w.stop) ∨
    (BadClock w.start ∨ BadClock w.stop) ∧ w.maxDurationMinutes = some 0

theorem validWindow_iff {w : MaintenanceWindow} :
    ValidWindow w ↔ ∀ rule : WindowRule, ¬ rule.Violated w := by
  constructor
  · intro h rule hbad
    obtain ⟨start, stop, hstart, hstop, hlt⟩ := h.bounds
    cases rule with
    | days => exact h.days hbad
    | start => exact hbad start hstart
    | stop => exact hbad stop hstop
    | order =>
      obtain ⟨a, b, ha, hb, hle⟩ := hbad
      rw [ha.functional hstart, hb.functional hstop] at hle
      omega
    | maxDuration => exact h.maxDuration hbad
  · intro h
    obtain ⟨start, hstart⟩ := not_badClock_iff.mp (h .start)
    obtain ⟨stop, hstop⟩ := not_badClock_iff.mp (h .stop)
    refine ⟨h .days, ⟨start, stop, hstart, hstop, Nat.lt_of_not_le fun hle => ?_⟩, h .maxDuration⟩
    exact h .order ⟨start, stop, parseClock_ok_iff.mp hstart, parseClock_ok_iff.mp hstop, hle⟩

theorem errors_eq_nil_iff {config : Config} :
    config.errors = [] ↔ (∀ rule : Rule, rule.Plain → ¬ rule.Violated config) ∧
      ∀ (i : Nat) w, config.maintenance.windows[i]? = some w →
        ∀ rule : WindowRule, ¬ rule.Violated w := by
  rw [List.eq_nil_iff_forall_not_mem]
  constructor
  · intro h
    constructor
    · intro rule hplain
      refine (section_eq_nil_iff hplain).mp (List.eq_nil_iff_forall_not_mem.mpr fun text ht => ?_)
      exact h text (mem_errors.mpr (.inl ⟨rule, hplain, ht⟩))
    · intro i w hw
      refine validWindow_iff.mp (windowErrors_eq_nil_iff (i := i).mp ?_)
      refine List.eq_nil_iff_forall_not_mem.mpr fun text ht => ?_
      exact h text (mem_errors.mpr (.inr ⟨i, w, hw, ht⟩))
  · intro ⟨hplain, hwindows⟩ text ht
    rcases mem_errors.mp ht with ⟨rule, hp, hmem⟩ | ⟨i, w, hw, hmem⟩
    · rw [(section_eq_nil_iff hp).mpr (hplain rule hp)] at hmem
      cases hmem
    · rw [windowErrors_eq_nil_iff.mpr (validWindow_iff.mpr (hwindows i w hw))] at hmem
      cases hmem

/-- **Acceptance forgets no rule.** Where the checks of a window end early, an error has been
pushed. -/
theorem validate_ok_iff_no_violation {config : Config} :
    config.validate = .ok () ↔ ∀ rule : Rule, ¬ rule.Violated config := by
  rw [validate_ok_iff_errors, errors_eq_nil_iff]
  constructor
  · intro ⟨hplain, hwindows⟩ rule hbad
    rcases rule.plain_or_window with hp | ⟨i, rule, rfl⟩
    · exact hplain rule hp hbad
    · obtain ⟨w, hw, hbad⟩ := hbad
      exact hwindows i w hw rule hbad
  · intro h
    exact ⟨fun rule _ => h rule, fun i w hw rule hbad => h (.window i rule) ⟨w, hw, hbad⟩⟩

/-! ## When the report is complete -/

/-- A window hides an error exactly when one of its rules is violated and not reported. -/
theorem hidesError_iff {w : MaintenanceWindow} :
    HidesError w ↔ ∃ rule : WindowRule, rule.Violated w ∧ ¬ rule.Reported w := by
  constructor
  · rintro (⟨hstart, hstop⟩ | ⟨hbad, hmax⟩)
    · exact ⟨.stop, hstop, fun h => h.1 hstart⟩
    · refine ⟨.maxDuration, hmax, fun h => ?_⟩
      rcases hbad with hstart | hstop
      · exact h.1 hstart
      · exact h.2.1 hstop
  · intro ⟨rule, hviolated, hnot⟩
    cases rule with
    | days => exact absurd hviolated hnot
    | start => exact absurd hviolated hnot
    | stop =>
      by_cases hstart : BadClock w.start
      · exact .inl ⟨hstart, hviolated⟩
      · exact absurd ⟨hstart, hviolated⟩ hnot
    | order => exact absurd hviolated hnot
    | maxDuration =>
      by_cases hbad : BadClock w.start ∨ BadClock w.stop
      · exact .inr ⟨hbad, hviolated⟩
      · rw [not_or] at hbad
        exact absurd ⟨hbad.1, hbad.2, hviolated⟩ hnot

/-- What a window hides is missing from the list. -/
theorem Complete.not_hidesError {config : Config} (h : Complete config) :
    ∀ w ∈ config.maintenance.windows, ¬ HidesError w := by
  intro w hw hhides
  obtain ⟨rule, hviolated, hnot⟩ := hidesError_iff.mp hhides
  obtain ⟨i, hi⟩ := List.mem_iff_getElem?.mp hw
  have hbad : (Rule.window i rule).Violated config := ⟨w, hi, hviolated⟩
  rcases validate_cases config with ⟨hok, -⟩ | ⟨herr, -⟩
  · exact validate_ok_iff_no_violation.mp hok _ hbad
  · obtain ⟨text, ht, hnames⟩ := h.2 _ herr _ hbad
    obtain ⟨w', hi', hreported⟩ := reported_of_names ht hnames
    rw [hi] at hi'
    cases hi'
    exact hnot hreported

/-- **The report is complete** exactly when no window has two of its clocks and its cap wrong. In
one direction the hidden rule is missing from the list, by `reported_of_names`; in the other every
violated rule is a reported one, and those have their errors. -/
theorem report_complete_iff (config : Config) :
    Complete config ↔ ∀ w ∈ config.maintenance.windows, ¬ HidesError w := by
  constructor
  · exact Complete.not_hidesError
  · intro h
    refine ⟨validate_ok_iff_no_violation, fun errors herr rule hviolated => ?_⟩
    rw [eq_errors_of_validate herr]
    refine exists_error_of_reported ?_
    cases rule with
    | window i rule =>
      obtain ⟨w, hw, hbad⟩ := hviolated
      refine ⟨w, hw, by_contra fun hnot => ?_⟩
      exact h w (List.mem_of_getElem? hw) (hidesError_iff.mpr ⟨rule, hbad, hnot⟩)
    | _ => exact hviolated

/-- **A window with two bad clocks is told of one of them.** -/
theorem second_clock_unreported : ¬ ∀ config, Complete config := by
  intro h
  let w : MaintenanceWindow := ⟨[.monday], "25:00", "26:00", none⟩
  have hstart : parseClock "25:00" = .error "hour out of range" := by decide +kernel
  have hstop : parseClock "26:00" = .error "hour out of range" := by decide +kernel
  have hhides : HidesError w := .inl ⟨badClock_iff.mpr ⟨_, hstart⟩, badClock_iff.mpr ⟨_, hstop⟩⟩
  exact (h { maintenance := { windows := [w] } }).not_hidesError w (List.mem_singleton.mpr rfl)
    hhides

end Abora
