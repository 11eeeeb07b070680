import ComicCatalog.Proofs.Store.Sorting
import ComicCatalog.Work.Entry
import Mathlib.Data.List.Dedup
import Mathlib.Data.String.Basic

/-! # Entries by artist

Entries are compared by the name of their first artist, and those without an artist come last
whichever way the names go. Sorting lays out the entries of one artist after the other, each
as they came, so the two directions differ in the order of the artists only.
-/

namespace ComicCatalog

/-! ## Names -/

namespace Entry

/-- Names by their lowercase forms, and those that share one by themselves. -/
def nameKey (name : String) : String ×ₗ String :=
  toLex (Text.fold name, name)

theorem nameKey_injective : Function.Injective nameKey := fun _ _ hkey =>
  congrArg (fun key => (ofLex key).2) hkey

/-- Names are compared by their keys. -/
theorem compareNames_compares (x y : String) : (compareNames x y).Compares (nameKey x) (nameKey y) := by
  have hfolded := compares_compare (Text.fold x) (Text.fold y)
  have hnames := compares_compare x y
  unfold compareNames nameKey
  cases hcompare : compare (Text.fold x) (Text.fold y) with
  | lt =>
      rw [hcompare] at hfolded
      exact Prod.Lex.toLex_lt_toLex.mpr (Or.inl hfolded)
  | gt =>
      rw [hcompare] at hfolded
      exact Prod.Lex.toLex_lt_toLex.mpr (Or.inl hfolded)
  | eq =>
      rw [hcompare] at hfolded
      have hsame : Text.fold x = Text.fold y := hfolded
      have hmono : StrictMono fun name : String => toLex (Text.fold y, name) := fun _ _ hlt =>
        Prod.Lex.toLex_lt_toLex.mpr (Or.inr ⟨rfl, hlt⟩)
      rw [hsame]
      exact hmono.compares.mpr hnames

theorem compareNames_swap (x y : String) : compareNames y x = (compareNames x y).swap :=
  (compareNames_compares y x).inj (Ordering.compares_swap.mpr (compareNames_compares x y))

end Entry

/-- Read in the direction, the first name belongs ahead of the second one. -/
def Direction.NameAhead (direction : Direction) (x y : String) : Prop :=
  match direction with
  | .ascending => Entry.nameKey x < Entry.nameKey y
  | .descending => Entry.nameKey y < Entry.nameKey x

namespace Direction

variable {direction : Direction}

theorem isLE_compareNames_iff (x y : String) :
    (direction.apply (Entry.compareNames x y)).isLE = true ↔ ¬ direction.NameAhead y x := by
  rw [direction.isLE_apply_of_compares (Entry.compareNames_compares x y)]
  cases direction with
  | ascending => exact not_lt.symm
  | descending => exact not_lt.symm

theorem not_nameAhead_trans {x y z : String} (hfirst : ¬ direction.NameAhead y x)
    (hsecond : ¬ direction.NameAhead z y) : ¬ direction.NameAhead z x := by
  cases direction with
  | ascending => exact not_lt.mpr ((not_lt.mp hfirst).trans (not_lt.mp hsecond))
  | descending => exact not_lt.mpr ((not_lt.mp hsecond).trans (not_lt.mp hfirst))

theorem not_nameAhead_of_nameAhead {x y : String} (hahead : direction.NameAhead x y) :
    ¬ direction.NameAhead y x := by
  cases direction with
  | ascending => exact lt_asymm hahead
  | descending => exact lt_asymm hahead

theorem ne_of_nameAhead {x y : String} (hahead : direction.NameAhead x y) : x ≠ y := by
  rintro rfl
  exact not_nameAhead_of_nameAhead hahead hahead

end Direction

/-! ## Entries -/

namespace Entry

variable {direction : Direction}

/-- An entry may stand before another one if that has no artist, or if both have one and
their names do not ask for the contrary. -/
theorem isLE_compareArtists_iff (a b : Entry) : (compareArtists direction a b).isLE = true ↔
    ∀ y ∈ b.firstArtist?, ∃ x ∈ a.firstArtist?, ¬ direction.NameAhead y x := by
  unfold compareArtists
  cases a.firstArtist? <;> cases b.firstArtist? <;> simp [Direction.isLE_compareNames_iff]

theorem compareArtists_swap (direction : Direction) (a b : Entry) :
    compareArtists direction b a = (compareArtists direction a b).swap := by
  unfold compareArtists
  cases a.firstArtist? with
  | none => cases b.firstArtist? <;> rfl
  | some x =>
      cases b.firstArtist? with
      | none => rfl
      | some y => cases direction <;> simp [Direction.apply, compareNames_swap x y]

/-- Entries are on a par if they have the same first artist, or both have none. -/
theorem compareArtists_eq_iff (a b : Entry) :
    compareArtists direction a b = .eq ↔ a.firstArtist? = b.firstArtist? := by
  have hnames : ∀ x y, direction.apply (compareNames x y) = .eq ↔ x = y := by
    intro x y
    have hpar : compareNames x y = .eq ↔ x = y :=
      (compareNames_compares x y).eq_eq.trans nameKey_injective.eq_iff
    cases direction <;> simp [Direction.apply, hpar]
  unfold compareArtists
  cases a.firstArtist? <;> cases b.firstArtist? <;> simp [hnames]

instance (direction : Direction) : Std.TransCmp (compareArtists direction) where
  eq_swap := fun {a b} => compareArtists_swap direction b a
  isLE_trans := by
    intro a b c
    simp only [isLE_compareArtists_iff]
    intro hfirst hsecond z hz
    obtain ⟨y, hy, hsecond⟩ := hsecond z hz
    obtain ⟨x, hx, hfirst⟩ := hfirst y hy
    exact ⟨x, hx, Direction.not_nameAhead_trans hfirst hsecond⟩

theorem compareArtists_total (direction : Direction) (a b : Entry) :
    (compareArtists direction a b).isLE = true ∨ (compareArtists direction b a).isLE = true := by
  rw [compareArtists_swap direction a b]
  cases compareArtists direction a b <;> simp

/-! ## Sorted entries -/

/-- The entries of one artist, or those without any, as they are given. -/
def ofArtist (entries : List Entry) (artist : Option String) : List Entry :=
  entries.filter (·.firstArtist? = artist)

theorem firstArtist?_of_mem_ofArtist {entries : List Entry} {artist : Option String} {entry : Entry}
    (hentry : entry ∈ ofArtist entries artist) : entry.firstArtist? = artist :=
  of_decide_eq_true (List.mem_filter.mp hentry).2

theorem ofArtist_ofArtist (entries : List Entry) (own artist : Option String) :
    ofArtist (ofArtist entries own) artist = if own = artist then ofArtist entries artist else [] := by
  split
  next hown =>
    subst hown
    exact List.filter_eq_self.mpr fun entry hentry => (List.mem_filter.mp hentry).2
  next hown =>
    rw [ofArtist, List.filter_eq_nil_iff]
    intro entry hentry hartist
    exact hown ((firstArtist?_of_mem_ofArtist hentry).symm.trans (of_decide_eq_true hartist))

/-- The entries of one artist are in order however they stand. -/
theorem pairwise_ofArtist (direction : Direction) (entries : List Entry) (artist : Option String) :
    (ofArtist entries artist).Pairwise fun a b => (compareArtists direction a b).isLE = true := by
  apply List.pairwise_of_forall_mem_list
  intro a ha b hb
  refine Ordering.isLE_of_eq_eq ((compareArtists_eq_iff a b).mpr ?_)
  rw [firstArtist?_of_mem_ofArtist ha, firstArtist?_of_mem_ofArtist hb]

/-- The given entries in the order of their first artists: the names go in the direction,
entries without an artist come last, and those that are on a par keep the order in which
they are given. -/
structure IsSortedByArtist (direction : Direction) (entries sorted : List Entry) : Prop where
  perm : sorted.Perm entries
  last : sorted.Pairwise fun a b => b.firstArtist?.isSome → a.firstArtist?.isSome
  ordered : sorted.Pairwise fun a b =>
    ∀ x ∈ a.firstArtist?, ∀ y ∈ b.firstArtist?, ¬ direction.NameAhead y x
  stable : ∀ artist, ofArtist sorted artist = ofArtist entries artist

theorem pairwise_sortByArtist (direction : Direction) (entries : List Entry) :
    (sortByArtist direction entries).Pairwise fun a b => (compareArtists direction a b).isLE = true :=
  List.pairwise_mergeSort (fun _ _ _ => Std.TransCmp.isLE_trans)
    (fun a b => Bool.or_eq_true_iff.mpr (compareArtists_total direction a b)) entries

/-- Sorting keeps the order of the entries of one artist. -/
theorem ofArtist_sortByArtist (direction : Direction) (entries : List Entry)
    (artist : Option String) :
    ofArtist (sortByArtist direction entries) artist = ofArtist entries artist := by
  have hsublist := List.sublist_mergeSort (fun _ _ _ => Std.TransCmp.isLE_trans)
    (fun a b => Bool.or_eq_true_iff.mpr (compareArtists_total direction a b))
    (pairwise_ofArtist direction entries artist) List.filter_sublist
  have hlength : (ofArtist (sortByArtist direction entries) artist).length =
      (ofArtist entries artist).length :=
    ((List.mergeSort_perm _ _).filter _).length_eq
  have hkept := hsublist.filter (·.firstArtist? = artist)
  rw [← ofArtist, ofArtist_ofArtist, if_pos rfl] at hkept
  exact (hkept.eq_of_length hlength.symm).symm

theorem isSortedByArtist_sortByArtist (direction : Direction) (entries : List Entry) :
    IsSortedByArtist direction entries (sortByArtist direction entries) where
  perm := List.mergeSort_perm _ _
  last := by
    refine (pairwise_sortByArtist direction entries).imp fun {a b} hle hsome => ?_
    obtain ⟨y, hy⟩ := Option.isSome_iff_exists.mp hsome
    obtain ⟨x, hx, -⟩ := (isLE_compareArtists_iff a b).mp hle y hy
    exact Option.isSome_of_mem hx
  ordered := by
    refine (pairwise_sortByArtist direction entries).imp fun {a b} hle x hx y hy => ?_
    obtain ⟨other, hother, hahead⟩ := (isLE_compareArtists_iff a b).mp hle y hy
    rwa [Option.mem_unique hx hother]
  stable := ofArtist_sortByArtist direction entries

theorem sortByArtist_sortByArtist (direction : Direction) (entries : List Entry) :
    sortByArtist direction (sortByArtist direction entries) = sortByArtist direction entries :=
  List.mergeSort_of_pairwise (pairwise_sortByArtist direction entries)

/-! ## Groups of one artist -/

theorem mem_iff_of_ofArtist_eq {first second : List Entry}
    (hsame : ∀ artist, ofArtist first artist = ofArtist second artist) (entry : Entry) :
    entry ∈ first ↔ entry ∈ second := by
  have hartist := congrArg (entry ∈ ·) (hsame entry.firstArtist?)
  simpa [ofArtist, List.mem_filter] using hartist

/-- Entries in order are the same if those of each artist are. -/
theorem eq_of_ofArtist_eq {first second : List Entry}
    (hfirst : first.Pairwise fun a b => (compareArtists direction a b).isLE = true)
    (hsecond : second.Pairwise fun a b => (compareArtists direction a b).isLE = true)
    (hsame : ∀ artist, ofArtist first artist = ofArtist second artist) : first = second := by
  induction first generalizing second with
  | nil =>
      symm
      rw [List.eq_nil_iff_forall_not_mem]
      exact fun a ha => List.not_mem_nil ((mem_iff_of_ofArtist_eq hsame a).mpr ha)
  | cons a rest ih =>
      have hmem := mem_iff_of_ofArtist_eq hsame
      obtain ⟨b, others, rfl⟩ := List.exists_cons_of_ne_nil
        (List.ne_nil_of_mem ((hmem a).mp List.mem_cons_self))
      -- Each of the two heads stands in the other list as well, so neither is ahead.
      have hheads : a.firstArtist? = b.firstArtist? := by
        rcases List.mem_cons.mp ((hmem a).mp List.mem_cons_self) with rfl | ha
        · rfl
        · rcases List.mem_cons.mp ((hmem b).mpr List.mem_cons_self) with rfl | hb
          · rfl
          · have hle := List.rel_of_pairwise_cons hfirst hb
            have hge := List.rel_of_pairwise_cons hsecond ha
            rw [compareArtists_swap direction a b, Ordering.isLE_swap] at hge
            exact (compareArtists_eq_iff a b).mp (Ordering.eq_eq_of_isLE_of_isGE hle hge)
      have hgroup := hsame b.firstArtist?
      rw [ofArtist, ofArtist, List.filter_cons_of_pos (by simpa using hheads),
        List.filter_cons_of_pos (by simp), List.cons.injEq] at hgroup
      obtain ⟨rfl, -⟩ := hgroup
      congr 1
      refine ih hfirst.of_cons hsecond.of_cons fun artist => ?_
      have hgroup := hsame artist
      rw [ofArtist, ofArtist, List.filter_cons, List.filter_cons] at hgroup
      split at hgroup
      · exact (List.cons.inj hgroup).2
      · exact hgroup

/-- The entries of some artists, artist by artist, and then those without any. -/
def byArtist (entries : List Entry) (names : List String) : List Entry :=
  names.flatMap (fun name => ofArtist entries (some name)) ++ ofArtist entries none

/-- What one name alone brings stands once in a list without repeats. -/
theorem flatMap_of_nodup {α : Type} {names : List String} (hnodup : names.Nodup) (name : String)
    (group : List α) : (names.flatMap fun other => if other = name then group else []) =
      if name ∈ names then group else [] := by
  induction names with
  | nil => rfl
  | cons other rest ih =>
      obtain ⟨hother, hrest⟩ := List.nodup_cons.mp hnodup
      rw [List.flatMap_cons, ih hrest]
      by_cases hsame : other = name
      · subst hsame
        simp [hother]
      · simp [hsame, Ne.symm hsame]

/-- Laid out by artists, entries of one artist are still as they are given. -/
theorem ofArtist_byArtist {entries : List Entry} {names : List String} (hnodup : names.Nodup)
    (hnames : ∀ entry ∈ entries, ∀ name ∈ entry.firstArtist?, name ∈ names)
    (artist : Option String) : ofArtist (byArtist entries names) artist = ofArtist entries artist := by
  have hgroups : ofArtist (byArtist entries names) artist =
      (names.flatMap fun name => if some name = artist then ofArtist entries artist else []) ++
        if none = artist then ofArtist entries artist else [] := by
    simp only [← ofArtist_ofArtist]
    rw [byArtist, ofArtist, List.filter_append, List.filter_flatMap]
    rfl
  rw [hgroups]
  cases artist with
  | none => simp
  | some name =>
      have hother : none ≠ some name := nofun
      simp only [Option.some.injEq]
      rw [if_neg hother, List.append_nil, flatMap_of_nodup hnodup]
      split
      · rfl
      next hmissing =>
        symm
        rw [ofArtist, List.filter_eq_nil_iff]
        intro entry hentry hartist
        exact hmissing (hnames entry hentry name (of_decide_eq_true hartist))

theorem pairwise_byArtist {entries : List Entry} {names : List String}
    (hnames : names.Pairwise direction.NameAhead) :
    (byArtist entries names).Pairwise fun a b => (compareArtists direction a b).isLE = true := by
  rw [byArtist, List.pairwise_append, List.pairwise_flatMap]
  refine ⟨⟨fun name _ => pairwise_ofArtist direction entries (some name), ?_⟩,
    pairwise_ofArtist direction entries none, ?_⟩
  · refine hnames.imp fun {x y} hahead a ha b hb => ?_
    rw [isLE_compareArtists_iff, firstArtist?_of_mem_ofArtist ha, firstArtist?_of_mem_ofArtist hb]
    rintro _ ⟨⟩
    exact ⟨x, rfl, Direction.not_nameAhead_of_nameAhead hahead⟩
  · intro a _ b hb
    rw [isLE_compareArtists_iff, firstArtist?_of_mem_ofArtist hb]
    nofun

/-- Sorted entries are those of one artist after the other. -/
theorem sortByArtist_eq_byArtist {entries : List Entry} {names : List String}
    (hnames : names.Pairwise direction.NameAhead)
    (hmem : ∀ entry ∈ entries, ∀ name ∈ entry.firstArtist?, name ∈ names) :
    sortByArtist direction entries = byArtist entries names := by
  have hnodup : names.Nodup := hnames.imp Direction.ne_of_nameAhead
  refine eq_of_ofArtist_eq (pairwise_sortByArtist direction entries) (pairwise_byArtist hnames) ?_
  intro artist
  rw [ofArtist_sortByArtist, ofArtist_byArtist hnodup hmem]

/-- The first artists of entries, each once and in order. -/
theorem exists_names (entries : List Entry) : ∃ names : List String,
    names.Pairwise Direction.ascending.NameAhead ∧
      ∀ name, name ∈ names ↔ ∃ entry ∈ entries, entry.firstArtist? = some name := by
  let names := (entries.filterMap firstArtist?).dedup.mergeSort fun x y => nameKey x ≤ nameKey y
  have hperm : names.Perm (entries.filterMap firstArtist?).dedup := List.mergeSort_perm _ _
  have hsorted : names.Pairwise fun x y => decide (nameKey x ≤ nameKey y) = true := by
    refine List.pairwise_mergeSort ?_ ?_ _
    · intro x y z
      simpa only [decide_eq_true_eq] using le_trans
    · intro x y
      simpa only [Bool.or_eq_true, decide_eq_true_eq] using le_total (nameKey x) (nameKey y)
  have hnodup : names.Nodup := hperm.nodup_iff.mpr (List.nodup_dedup _)
  refine ⟨names, hsorted.imp₂ (fun x y hle hne => ?_) hnodup, fun name => ?_⟩
  · exact lt_of_le_of_ne (of_decide_eq_true hle) (nameKey_injective.ne hne)
  · rw [hperm.mem_iff, List.mem_dedup, List.mem_filterMap]

/-- Entries are compared by a total preorder in which entries are on a par that have the same
first artist or none. Sorting brings them in that order, keeps those on a par as they came,
and is done once for all. The first artists tell the groups: the other direction turns their
order around and leaves each group, and the entries without an artist, as they are. -/
theorem sorted_by_artist (entries : List Entry) :
    (∀ direction, Std.TransCmp (compareArtists direction) ∧
      (∀ a b, (compareArtists direction a b).isLE = true ∨
        (compareArtists direction b a).isLE = true) ∧
      ∀ a b, compareArtists direction a b = .eq ↔ a.firstArtist? = b.firstArtist?) ∧
    (∀ direction, IsSortedByArtist direction entries (sortByArtist direction entries) ∧
      sortByArtist direction (sortByArtist direction entries) = sortByArtist direction entries) ∧
    ∃ names : List String, names.Pairwise Direction.ascending.NameAhead ∧
      (∀ name, name ∈ names ↔ ∃ entry ∈ entries, entry.firstArtist? = some name) ∧
      sortByArtist .ascending entries = byArtist entries names ∧
      sortByArtist .descending entries = byArtist entries names.reverse := by
  refine ⟨fun direction => ⟨inferInstance, compareArtists_total direction, compareArtists_eq_iff⟩,
    fun direction => ⟨isSortedByArtist_sortByArtist direction entries,
      sortByArtist_sortByArtist direction entries⟩, ?_⟩
  obtain ⟨names, hnames, hmem⟩ := exists_names entries
  have hall : ∀ entry ∈ entries, ∀ name ∈ entry.firstArtist?, name ∈ names :=
    fun entry hentry name hname => (hmem name).mpr ⟨entry, hentry, hname⟩
  refine ⟨names, hnames, hmem, sortByArtist_eq_byArtist hnames hall, sortByArtist_eq_byArtist ?_ ?_⟩
  · exact List.pairwise_reverse.mpr hnames
  · simpa using hall

end Entry

end ComicCatalog
