import Abora.Daemon.Handlers

/-!
# Pages of the service list

`parse_service_query` (`aborad/src/handlers.rs`) and `ServiceQuery::apply`
(`abora-services/src/lib.rs`) together: the indexes of `apply` are computed here as the source
computes them, with an addition that may overflow and a slice that may be out of range. `apply_eq`
says what a page is — the rest of the matching units behind the offset, cut at the limit — and
everything a client that pages through the list relies on is read off it: the total does not depend
on the page, no page is longer than asked for, none is beyond the end, and the pages together are
the list.

A slice has less than `2 ^ 63` elements and a client may ask for pages of at most 1000, so the
addition stays below `2 ^ 64`. The limit is the parser's, and `serviceParam_limit` is where the two
files meet.
-/

namespace Abora.Services

open Lib

/-- A slice in memory: no allocation has more than `isize::MAX` bytes, so no slice has more
elements. -/
structure Slice (α : Type) where
  items : List α
  length_lt : items.length < 2 ^ 63

/-- Addition on `usize`; `none` is an overflow. -/
def usizeAdd (a b : Nat) : Option Nat := if a + b < 2 ^ 64 then some (a + b) else none

/-- `&items[start..end]`; `none` is a panic. -/
def sliceRange {α : Type} (items : List α) (start stop : Nat) : Option (List α) :=
  if start ≤ stop ∧ stop ≤ items.length then some ((items.take stop).drop start) else none

namespace ServiceQuery

/-- `apply`, index by index. The source starts at the offset or at the end, whichever is first. -/
def applyChecked (query : ServiceQuery) (services : List ServiceStatus) :
    Option (List ServiceStatus) :=
  let matched := services.filter query.matchesFilters
  if matched = [] then some []
  else do
    let start := min query.offset matched.length
    let stop ←
      match query.limit with
      | some limit =>
        if 0 < limit then (usizeAdd start limit).map (min · matched.length)
        else some matched.length
      | none => some matched.length
    sliceRange matched start stop

/-- What a client gets of the units that match, when no page is empty by an accident of the
numbers: every element once, in order. -/
structure PagesExact (query : ServiceQuery) (services : List ServiceStatus) : Prop where
  total : ∀ limit offset, { query with limit := limit, offset := offset }.totalMatching services =
    (services.filter query.matchesFilters).length
  bounded : ∀ limit, query.limit = some limit →
    ∃ page, query.applyChecked services = some page ∧ page.length ≤ limit
  beyond : query.totalMatching services ≤ query.offset → query.applyChecked services = some []
  complete : ∀ limit, query.limit = some limit →
    ((List.range (query.totalMatching services / limit + 1)).mapM fun i =>
        { query with offset := i * limit }.applyChecked services).map List.flatten =
      some (services.filter query.matchesFilters)
  unlimited : query.limit = none → query.applyChecked services =
    some ((services.filter query.matchesFilters).drop
      (min query.offset (query.totalMatching services)))

/-- **What a page is**: the rest behind the offset, cut at the limit if there is one. -/
theorem apply_eq (query : ServiceQuery) (services : List ServiceStatus) :
    query.apply services =
      let rest := (services.filter query.matchesFilters).drop query.offset
      match query.limit with
      | some limit => if 0 < limit then rest.take limit else rest
      | none => rest := by
  unfold apply
  generalize services.filter query.matchesFilters = matched
  dsimp only
  split
  · rename_i hnil
    rw [hnil]
    cases query.limit <;> simp
  · have hdrop : matched.drop (min query.offset matched.length) = matched.drop query.offset := by
      rcases Nat.le_total query.offset matched.length with h | h
      · rw [Nat.min_eq_left h]
      · rw [Nat.min_eq_right h, List.drop_length, List.drop_eq_nil_of_le h]
    have hall : (matched.take matched.length).drop (min query.offset matched.length) =
        matched.drop query.offset := by
      rw [List.take_length, hdrop]
    cases query.limit with
    | none => exact hall
    | some limit =>
      dsimp only
      split
      · rw [← hdrop, List.take_drop, List.take_eq_take_iff.mpr]
        rw [Nat.min_assoc, Nat.min_self]
      · exact hall

/-- **Nothing overflows and nothing is out of range**, with a page size a client may ask for. -/
theorem applyChecked_eq {query : ServiceQuery} (hlimit : ∀ limit ∈ query.limit, limit ≤ 1000)
    (services : Slice ServiceStatus) :
    query.applyChecked services.items = some (query.apply services.items) := by
  have hlen : (services.items.filter query.matchesFilters).length < 2 ^ 63 :=
    Nat.lt_of_le_of_lt (List.length_filter_le _ _) services.length_lt
  unfold applyChecked apply
  generalize services.items.filter query.matchesFilters = matched at hlen
  dsimp only
  split
  · rfl
  have hstart : min query.offset matched.length ≤ matched.length := Nat.min_le_right _ _
  cases hquery : query.limit with
  | none => exact if_pos ⟨hstart, Nat.le_refl _⟩
  | some limit =>
    dsimp only
    split
    · have hsum : usizeAdd (min query.offset matched.length) limit =
          some (min query.offset matched.length + limit) := by
        have hle := hlimit limit hquery
        exact if_pos (by omega)
      rw [hsum]
      exact if_pos ⟨Nat.le_min.mpr ⟨Nat.le_add_right _ _, hstart⟩, Nat.min_le_right _ _⟩
    · exact if_pos ⟨hstart, Nat.le_refl _⟩

theorem pagesExact_of_limit {query : ServiceQuery}
    (hlimit : ∀ limit ∈ query.limit, 0 < limit ∧ limit ≤ 1000) (services : Slice ServiceStatus) :
    query.PagesExact services.items := by
  have hchecked := applyChecked_eq (fun limit h => (hlimit limit h).2) services
  refine ⟨fun _ _ => rfl, fun limit h => ⟨_, hchecked, ?_⟩, fun h => ?_, fun limit h => ?_,
    fun h => ?_⟩
  · rw [apply_eq, h]
    dsimp only
    rw [if_pos (hlimit limit h).1]
    exact List.length_take_le _ _
  · rw [hchecked, apply_eq, List.drop_eq_nil_of_le h]
    cases query.limit <;> simp
  · have hpos := (hlimit limit h).1
    have hpage (i : Nat) : { query with offset := i * limit }.applyChecked services.items =
        pure (((services.items.filter query.matchesFilters).drop (i * limit)).take limit) := by
      have hmoved := @applyChecked_eq { query with offset := i * limit }
        (fun limit h => (hlimit limit h).2) services
      rw [hmoved, apply_eq]
      dsimp only
      rw [h]
      exact congrArg some (if_pos hpos)
    rw [funext hpage, List.mapM_pure]
    have hend : (services.items.filter query.matchesFilters).length ≤
        (query.totalMatching services.items / limit + 1) * limit := by
      rw [Nat.succ_mul]
      exact Nat.le_of_lt (Nat.lt_div_mul_add hpos)
    show some _ = _
    rw [flatten_pages, List.take_of_length_le hend]
  · rw [hchecked, apply_eq, h]
    dsimp only
    rcases Nat.le_total query.offset (query.totalMatching services.items) with hle | hle
    · rw [Nat.min_eq_left hle]
    · rw [Nat.min_eq_right hle, List.drop_eq_nil_of_le hle]
      exact congrArg some List.drop_length.symm

end ServiceQuery

end Abora.Services

namespace Abora.Daemon

open Lib Services

/-- What `parse_service_query` lets through, parameter by parameter: a limit is positive and
small. -/
theorem serviceParam_limit {query : ServiceQuery} {p : String × String} {query' : ServiceQuery}
    (hlimit : ∀ limit ∈ query.limit, 0 < limit ∧ limit ≤ maxServicePage)
    (h : serviceParam query p.1 p.2 = .ok query') :
    ∀ limit ∈ query'.limit, 0 < limit ∧ limit ≤ maxServicePage := by
  unfold serviceParam at h
  split at h
  · split at h <;> cases h
    exact hlimit
  · split at h <;> cases h
    · exact hlimit
    · exact hlimit
  · split at h <;> cases h <;> exact hlimit
  · split at h
    · rename_i n hn
      cases h
      intro limit hlimit
      cases hlimit
      have hrange := (Option.filter_eq_some_iff.mp hn).2
      simp only [Bool.and_eq_true, decide_eq_true_eq] at hrange
      exact hrange
    · cases h
  · split at h <;> cases h
    exact hlimit
  · cases h

/-- **Pages lose and repeat nothing**, whatever query was accepted, of whatever filter: the
library's lemma on pages is applied to the units that match. -/
theorem pages_exact {params : List (String × String)} {query : ServiceQuery}
    (h : parseServiceQuery params = .ok query) (services : Slice ServiceStatus) :
    query.PagesExact services.items :=
  ServiceQuery.pagesExact_of_limit (foldlM_ok (fun _ _ _ hs => serviceParam_limit hs)
    (fun _ hnone => by cases hnone) h) services

/-- Pages of two, of three units. -/
theorem pages_exact_two :
    parseServiceQuery [("limit", "2")] = .ok { limit := some 2 } ∧
      ({ limit := some 2 } : ServiceQuery).PagesExact
        [⟨"cron.service", .running, none, none⟩, ⟨"dbus.service", .running, none, none⟩,
          ⟨"ssh.service", .failed, some true, none⟩] := by
  have hparse : parseServiceQuery [("limit", "2")] = .ok { limit := some 2 } := by rfl
  exact ⟨hparse, pages_exact hparse ⟨_, by decide⟩⟩

end Abora.Daemon
