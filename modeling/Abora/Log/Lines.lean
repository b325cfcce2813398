import Abora.Log.Logger

/-!
# One record, one line

JSON escapes control characters, so what is logged cannot end a record early. The text format writes
component, message and the keys of fields as they are, and a newline in one of them makes two lines
of a record (`lines_exact`); messages carry what `apt` wrote to its standard error.

A run of the logger is a list of records and of changes of the threshold, and which records it
writes is known without the logger (`emitted`). For each of these there is one line, as the format
has it, and the log is these lines one after the other (`exists_run`); so the log can be cut into
records at its newlines exactly if no record has one of its own. Whether a record has one is a
matter of its texts (`SingleLine`), as the values of its fields are escaped in both formats.
-/

namespace Abora.Log

open Lib.Text

variable {Value : Type}

/-- One newline, at the end. -/
def OneLine (s : Chars) : Prop := ∃ body, s = body ++ ['\n'] ∧ '\n' ∉ body

/-- Nothing that is written as it is has a newline: the component, the keys of the fields, the
message. -/
structure Emission.SingleLine (e : Emission Value) : Prop where
  component : '\n' ∉ e.record.componentOrDefault.toList
  keys : ∀ p ∈ e.record.fields.toList, '\n' ∉ p.1.toList
  msg : '\n' ∉ e.msg.toList

/-- What is done with a logger. A level that is set counts from the next record on. -/
inductive Event (Value : Type) where
  | setLevel (level : Level)
  | emit (e : Emission Value)

namespace Logger

def step (serde : SerdeJson Value) (logger : Logger) : Event Value → Option Logger
  | .setLevel level => some (logger.setLevel level)
  | .emit e => logger.emit serde e

def run (serde : SerdeJson Value) (logger : Logger) (events : List (Event Value)) : Option Logger :=
  events.foldlM (step serde) logger

end Logger

/-- The records that pass the threshold, which may change on the way. -/
def emitted (threshold : Nat) : List (Event Value) → List (Emission Value)
  | [] => []
  | .setLevel level :: events => emitted level.asRank events
  | .emit e :: events =>
    if Logger.enabled threshold e.record.level then e :: emitted threshold events
    else emitted threshold events

/-- Nothing is written above the threshold: an emitted record has a level that the logger was
created with or set to, or one that is more severe, and none is written at the level `off`. -/
theorem level_of_emitted {threshold : Level} {events : List (Event Value)} {e : Emission Value}
    (h : e ∈ emitted threshold.asRank events) :
    e.record.level ≠ .off ∧ ∃ level, (level = threshold ∨ .setLevel level ∈ events) ∧
      e.record.level.asRank ≤ level.asRank := by
  induction events generalizing threshold with
  | nil => cases h
  | cons event events ih =>
    cases event with
    | setLevel level =>
      obtain ⟨hoff, level', hset, hrank⟩ := @ih level h
      exact ⟨hoff, level', .inr (List.mem_cons.mpr (hset.imp (congrArg _) id)), hrank⟩
    | emit first =>
      have hlater (hmem : e ∈ emitted threshold.asRank events) :
          e.record.level ≠ .off ∧ ∃ level, (level = threshold ∨
            .setLevel level ∈ .emit first :: events) ∧ e.record.level.asRank ≤ level.asRank := by
        obtain ⟨hoff, level, hset, hrank⟩ := ih hmem
        exact ⟨hoff, level, hset.imp_right (List.mem_cons_of_mem _), hrank⟩
      unfold emitted at h
      split at h
      · rename_i henabled
        rcases List.mem_cons.mp h with rfl | hmem
        · obtain ⟨hoff, hrank⟩ := (Logger.enabled_asRank threshold e.record.level).mp henabled
          exact ⟨hoff, threshold, .inl rfl, hrank⟩
        · exact hlater hmem
      · exact hlater h

/-! ## One record -/

theorem oneLine_concat_iff {body : Chars} : OneLine (body ++ ['\n']) ↔ '\n' ∉ body := by
  constructor
  · rintro ⟨body', heq, hbody⟩
    rwa [List.append_cancel_right heq]
  · exact fun h => ⟨body, rfl, h⟩

theorem newline_mem_fields {serde : SerdeJson Value} (h : serde.Lawful)
    (l : List (String × Value)) (line : Chars) :
    '\n' ∈ l.foldl (fun line p =>
        line ++ ' ' :: p.1.toList ++ '=' :: (serde.display p.2).toList) line ↔
      '\n' ∈ line ∨ ∃ p ∈ l, '\n' ∈ p.1.toList := by
  induction l generalizing line with
  | nil => simp
  | cons p l ih =>
    have hvalue : '\n' ∉ (serde.display p.2).toList := fun hmem => by
      have hprints := h.display_escapes p.2 '\n' hmem
      revert hprints
      decide
    rw [List.foldl_cons, ih]
    simp [hvalue, or_assoc]

/-- What an emission writes is one line if its format is JSON or it is of single lines itself, and
only then. -/
theorem exists_line {serde : SerdeJson Value} (h : serde.Lawful) (format : Format)
    (e : Emission Value) :
    ∃ body, Logger.line serde format e = some (body ++ ['\n']) ∧
      ('\n' ∉ body ↔ format = .json ∨ e.SingleLine) := by
  obtain ⟨ts, hts, hstamp⟩ := exists_utcRfc3339Millis e.epoch
  unfold Logger.line Logger.writeRecord
  rw [hts]
  cases format with
  -- JSON has no control characters at all, so there is no newline but the one at the end
  | json =>
    refine ⟨_, rfl, iff_of_true ?_ (.inl rfl)⟩
    obtain ⟨text, htext, -⟩ := h.reads_back (e.record.fields.foldl
      (fun obj k v => obj.insert k v)
      (metadata serde ts e.record.level e.record.componentOrDefault e.msg))
    rw [htext]
    intro hmem
    have hprints := h.toString_escapes _ _ htext '\n' hmem
    revert hprints
    decide
  | text =>
    refine ⟨_, rfl, ?_⟩
    -- of the parts of a text record the time and the level have none, and the others are as they
    -- are
    have hlevel : '\n' ∉ e.record.level.display.toList := by
      cases e.record.level <;> decide
    have hhead : '\n' ∈ ts.toList ++ ' ' :: e.record.level.display.toList ++ " [".toList ++
        e.record.componentOrDefault.toList ++ "] ".toList ++ e.msg.toList ↔
        '\n' ∈ e.record.componentOrDefault.toList ∨ '\n' ∈ e.msg.toList := by
      simp [hstamp, hlevel]
    rw [Std.ExtTreeMap.foldl_eq_foldl_toList, newline_mem_fields h, hhead]
    constructor
    · intro hbody
      obtain ⟨hwritten, hkeys⟩ := not_or.mp hbody
      obtain ⟨hcomponent, hmsg⟩ := not_or.mp hwritten
      exact .inr ⟨hcomponent, fun p hp hmem => hkeys ⟨p, hp, hmem⟩, hmsg⟩
    · rintro (hjson | hsingle)
      · cases hjson
      · rintro ((hcomponent | hmsg) | ⟨p, hp, hmem⟩)
        · exact hsingle.component hcomponent
        · exact hsingle.msg hmsg
        · exact hsingle.keys p hp hmem

/-! ## A whole log -/

/-- A run never panics, and writes one text for each record that is emitted, in their order. -/
theorem exists_run {serde : SerdeJson Value} (h : serde.Lawful) (events : List (Event Value))
    (logger : Logger) :
    ∃ logger' bodies, logger.run serde events = some logger' ∧
      logger'.written = logger.written ++ unlines bodies ∧
      List.Forall₂ (fun e body => Logger.line serde logger.format e = some (body ++ ['\n']))
        (emitted logger.threshold events) bodies := by
  induction events generalizing logger with
  | nil => exact ⟨logger, [], rfl, (List.append_nil _).symm, .nil⟩
  | cons event events ih =>
    unfold Logger.run
    rw [List.foldlM_cons]
    cases event with
    | setLevel level => exact ih (logger.setLevel level)
    | emit e =>
      unfold Logger.step Logger.emit emitted
      by_cases henabled : Logger.enabled logger.threshold e.record.level = true
      · obtain ⟨body, hline, -⟩ := exists_line h logger.format e
        obtain ⟨logger', bodies, hrun, hwritten, hbodies⟩ :=
          ih { logger with written := logger.written ++ (body ++ ['\n']) }
        refine ⟨logger', body :: bodies, ?_, ?_, ?_⟩
        · simp only [henabled, Bool.not_true, Bool.false_eq_true, if_false, hline, Option.map_some]
          exact hrun
        · rw [hwritten, unlines_cons, List.append_assoc, List.append_assoc]
          rfl
        · rw [if_pos henabled]
          exact .cons hline hbodies
      · obtain ⟨logger', bodies, hrun, hwritten, hbodies⟩ := ih logger
        refine ⟨logger', bodies, ?_, hwritten, ?_⟩
        · simp only [henabled, Bool.not_false, if_true]
          exact hrun
        · rw [if_neg henabled]
          exact hbodies

theorem forall_bodies_iff {serde : SerdeJson Value} (h : serde.Lawful) {format : Format}
    {es : List (Emission Value)} {bodies : List Chars}
    (hbodies : List.Forall₂ (fun e body => Logger.line serde format e = some (body ++ ['\n']))
      es bodies) :
    (∀ body ∈ bodies, '\n' ∉ body) ↔ ∀ e ∈ es, format = .json ∨ e.SingleLine := by
  induction hbodies with
  | nil => simp
  | @cons e body es bodies hline _ ih =>
    obtain ⟨body', hline', hiff⟩ := exists_line h format e
    obtain rfl : body = body' :=
      List.append_cancel_right (Option.some.inj (hline.symm.trans hline'))
    rw [List.forall_mem_cons, List.forall_mem_cons, ih, hiff]

/-- **One record is one line** exactly when it is JSON, or has no newline in its component, in its
message and in the keys of its fields; and exactly then, for all records of a run, the lines of the
log are the records in the order they were emitted. -/
theorem lines_exact {serde : SerdeJson Value} (h : serde.Lawful) :
    (∀ format (e : Emission Value), ∃ line, Logger.line serde format e = some line ∧
      (OneLine line ↔ format = .json ∨ e.SingleLine)) ∧
    (∀ level format (events : List (Event Value)), ∃ logger bodies,
      (Logger.build level format).run serde events = some logger ∧
      List.Forall₂ (fun e body => Logger.line serde format e = some (body ++ ['\n']))
        (emitted level.asRank events) bodies ∧
      (splitAll '\n' logger.written = bodies ++ [[]] ↔
        ∀ e ∈ emitted level.asRank events, format = .json ∨ e.SingleLine)) := by
  constructor
  · intro format e
    obtain ⟨body, hline, hiff⟩ := exists_line h format e
    exact ⟨_, hline, oneLine_concat_iff.trans hiff⟩
  · intro level format events
    obtain ⟨logger, bodies, hrun, hwritten, hbodies⟩ := exists_run h events (.build level format)
    refine ⟨logger, bodies, hrun, hbodies, ?_⟩
    have hwritten : logger.written = unlines bodies := hwritten
    rw [hwritten, splitAll_unlines_iff]
    exact forall_bodies_iff h hbodies

def emptySerde : SerdeJson String := .pinned ∅ "\x7b\x7d"

theorem emptySerde_lawful : emptySerde.Lawful :=
  SerdeJson.pinned_lawful (by decide) (by decide)

def configOk : Emission String where
  epoch := Duration.fromSecs 1700000000
  record := ((RecordBuilder.new .info).setComponent "cli").field "channel" (some "stable")
  msg := "config ok"

/-- The second record is below the threshold that was set in between. -/
theorem lines_exact_reconfigured : ∃ logger bodies,
    (Logger.build .info .text).run emptySerde
      [.emit configOk, .setLevel .error, .emit configOk] = some logger ∧
    splitAll '\n' logger.written = bodies ++ [[]] ∧ bodies.length = 1 := by
  obtain ⟨logger, bodies, hrun, hbodies, hiff⟩ := (lines_exact emptySerde_lawful).2 .info .text
    [.emit configOk, .setLevel .error, .emit configOk]
  refine ⟨logger, bodies, hrun, hiff.mpr fun e he => ?_, hbodies.length_eq.symm⟩
  obtain rfl : e = configOk := List.mem_singleton.mp he
  exact .inr ⟨by decide, by decide, by decide⟩

/-- What the scheduler says when `apt` failed in two lines. -/
def aptFailed : Emission String where
  epoch := Duration.fromSecs 1700000000
  record := RecordBuilder.new .warn
  msg := "update check failed: E: Could not resolve host\nE: Some index files failed to download"

theorem apt_error_two_lines :
    ∃ line, Logger.line emptySerde .text aptFailed = some line ∧ ¬ OneLine line := by
  obtain ⟨body, hline, hiff⟩ := exists_line emptySerde_lawful .text aptFailed
  refine ⟨_, hline, fun hone => ?_⟩
  rcases hiff.mp (oneLine_concat_iff.mp hone) with hjson | hsingle
  · cases hjson
  · have hmsg : '\n' ∈ aptFailed.msg.toList := by decide
    exact hsingle.msg hmsg

example : Logger.line emptySerde .text configOk =
    some "2023-11-14T22:13:20.000Z info [cli] config ok channel=\"stable\"\n".toList := by
  decide

end Abora.Log
