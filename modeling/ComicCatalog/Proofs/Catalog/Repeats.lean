import ComicCatalog.Proofs.Catalog.Annotation

/-! # Records that are annotated together

Numbers are looked up in pieces, and a number that stands in several pieces has its names
found once for each of them. So a record can get its names more often among many records
than among few, and annotating a list is annotating its parts exactly if every record with
names stands in as many pieces of the whole list as of its own part.
-/

namespace ComicCatalog

open Lookup

namespace Lookup

variable {α : Type}

theorem length_pieces_le_one {values : List α} (hlength : values.length ≤ maxAmong) :
    (pieces values).length ≤ 1 := by
  cases values with
  | nil => simp [pieces]
  | cons value rest =>
      have hdrop : rest.drop (maxAmong - 1) = [] := by
        rw [List.drop_eq_nil_iff]
        simp only [List.length_cons] at hlength
        omega
      rw [pieces, hdrop, pieces, List.length_singleton]

/-- Values that are cut into one piece stand in one piece. -/
theorem piecesWith_eq_one_of_length [BEq α] [LawfulBEq α] {values : List α} {value : α}
    (hlength : values.length ≤ maxAmong) (hvalue : value ∈ values) : piecesWith values value = 1 := by
  have hpos := piecesWith_pos.mpr hvalue
  have hle : piecesWith values value ≤ (pieces values).length := List.countP_le_length
  have hone := length_pieces_le_one hlength
  omega

/-- A value that comes alone stands in every piece. -/
theorem piecesWith_replicate [BEq α] [LawfulBEq α] (count : Nat) (value : α) :
    piecesWith (List.replicate count value) value = (count + 499) / 500 := by
  induction count using Nat.strong_induction_on with
  | _ count ih =>
      cases count with
      | zero => simp [piecesWith, pieces]
      | succ rest =>
          have hrest := ih (rest - (maxAmong - 1)) (by omega)
          rw [piecesWith] at hrest
          rw [piecesWith, List.replicate_succ, pieces, List.take_replicate, List.drop_replicate,
            List.countP_cons_of_pos (by simp), hrest, maxAmong]
          omega

end Lookup

/-! ## The pieces of a record -/

/-- In how many pieces of the numbers of the records its own number stands. -/
def Record.piecesAmong (rows : List Record) (row : Record) : Nat :=
  match row.wholeId? with
  | some n => piecesWith (idTexts rows) (toString n)
  | none => 0

/-- Some link of the record points at a tag or an artist. -/
def Database.HasNames (db : Database) (row : Record) : Prop :=
  ∃ n, row.wholeId? = some n ∧ (db.linkedNames .tag n ≠ [] ∨ db.linkedNames .artist n ≠ [])

theorem mem_idTexts {rows : List Record} {row : Record} {n : Int} (hrow : row ∈ rows)
    (hid : row.wholeId? = some n) : toString n ∈ idTexts rows :=
  List.mem_map_of_mem (List.mem_filterMap.mpr ⟨row, hrow, hid⟩)

theorem length_idTexts_le (rows : List Record) : (idTexts rows).length ≤ rows.length := by
  rw [idTexts, List.length_map]
  exact List.length_filterMap_le _ _

theorem nodup_idTexts {rows : List Record} (hnodup : (rows.map Record.wholeId?).Nodup) :
    (idTexts rows).Nodup := by
  have hnumbers : (rows.filterMap Record.wholeId?).Nodup := by
    have hids := hnodup.filterMap (f := id) fun _ _ _ hfirst hsecond =>
      (Option.mem_def.mp hfirst).trans (Option.mem_def.mp hsecond).symm
    rwa [List.filterMap_map, Function.id_comp] at hids
  exact hnumbers.map fun _ _ htext => Int.repr_inj.mp htext

/-- In a short list, and in one without repeats, a record stands in one piece. -/
theorem piecesAmong_eq_one {rows : List Record} {row : Record} {n : Int} (hrow : row ∈ rows)
    (hid : row.wholeId? = some n)
    (hrows : rows.length ≤ maxAmong ∨ (rows.map Record.wholeId?).Nodup) : row.piecesAmong rows = 1 := by
  simp only [Record.piecesAmong, hid]
  rcases hrows with hlength | hnodup
  · exact piecesWith_eq_one_of_length ((length_idTexts_le rows).trans hlength) (mem_idTexts hrow hid)
  · exact piecesWith_eq_one (nodup_idTexts hnodup) (mem_idTexts hrow hid)

/-! ## Parts of a list -/

theorem flatten_replicate_inj {α : Type} {list : List α} {count other : Nat} :
    (List.replicate count list).flatten = (List.replicate other list).flatten ↔
      (list ≠ [] → count = other) := by
  constructor
  · intro hsame hne
    have hlength := congrArg List.length hsame
    simp only [List.length_flatten, List.map_replicate, List.sum_replicate, smul_eq_mul] at hlength
    exact Nat.eq_of_mul_eq_mul_right (List.length_pos_of_ne_nil hne) hlength
  · intro hcount
    by_cases hnil : list = []
    · simp [hnil]
    · rw [hcount hnil]

variable {db : Database}

/-- A record has the same entry among two lists if it has no names, or stands in as many
pieces of the one as of the other. -/
theorem entryAmong_eq_iff {rows others : List Record} {row : Record} (hrow : row.IsNumbered) :
    db.entryAmong rows row = db.entryAmong others row ↔
      (db.HasNames row → row.piecesAmong rows = row.piecesAmong others) := by
  obtain ⟨n, hget, -⟩ := hrow
  have hid := Record.wholeId?_of_get? hget
  simp only [Database.entryAmong, Database.namesAmong, Entry.ofRecord, Entry.mk.injEq, true_and, hid,
    flatten_replicate_inj, Database.HasNames, Record.piecesAmong, Option.some.injEq,
    exists_eq_left', or_imp]

/-- The entries of a list are those of its parts exactly if every record with names stands
in as many pieces of the whole as of its own part. Then it gets each name once for each
piece. In short lists, and where no number repeats, that is once. -/
theorem annotation_of_parts (hsound : db.Sound) {first second : List Record}
    (hfirst : ∀ row ∈ first, row.IsNumbered) (hsecond : ∀ row ∈ second, row.IsNumbered) :
    ∃ whole left right,
      (annotate (first ++ second)).resultOn db = .ok whole ∧
      (annotate first).resultOn db = .ok left ∧ (annotate second).resultOn db = .ok right ∧
      whole = (first ++ second).map (db.entryAmong (first ++ second)) ∧
      (whole = left ++ right ↔
        (∀ row ∈ first, db.HasNames row → row.piecesAmong (first ++ second) = row.piecesAmong first) ∧
        ∀ row ∈ second, db.HasNames row → row.piecesAmong (first ++ second) = row.piecesAmong second) ∧
      ((first ++ second).length ≤ maxAmong ∨ ((first ++ second).map Record.wholeId?).Nodup →
        whole = left ++ right) := by
  have hwhole : ∀ row ∈ first ++ second, row.IsNumbered := by
    intro row hrow
    exact (List.mem_append.mp hrow).elim (hfirst row) (hsecond row)
  have hparts : (first ++ second).map (db.entryAmong (first ++ second)) =
        first.map (db.entryAmong first) ++ second.map (db.entryAmong second) ↔
      (∀ row ∈ first, db.HasNames row → row.piecesAmong (first ++ second) = row.piecesAmong first) ∧
        ∀ row ∈ second, db.HasNames row →
          row.piecesAmong (first ++ second) = row.piecesAmong second := by
    -- Both sides have as many entries in front, so they are compared part by part.
    have hsplit : ∀ {front back left right : List Entry}, front.length = left.length →
        (front ++ back = left ++ right ↔ front = left ∧ back = right) := by
      intro front back left right hlength
      exact ⟨fun hsame => List.append_inj hsame hlength, fun ⟨hfront, hback⟩ => by rw [hfront, hback]⟩
    rw [List.map_append, hsplit (by simp), List.map_inj_left, List.map_inj_left]
    exact and_congr (forall₂_congr fun row hrow => entryAmong_eq_iff (hfirst row hrow))
      (forall₂_congr fun row hrow => entryAmong_eq_iff (hsecond row hrow))
  refine ⟨_, _, _, resultOn_annotate_of_numbered hsound hwhole,
    resultOn_annotate_of_numbered hsound hfirst, resultOn_annotate_of_numbered hsound hsecond, rfl,
    hparts, ?_⟩
  intro hrows
  -- Few or distinct records stay so in either part, and then an identifier is in one piece.
  have hpart : ∀ part : List Record, part.Sublist (first ++ second) →
      part.length ≤ maxAmong ∨ (part.map Record.wholeId?).Nodup := by
    intro part hsublist
    refine hrows.imp (fun hlength => ?_) fun hnodup => ?_
    · exact hsublist.length_le.trans hlength
    · exact (hsublist.map _).nodup hnodup
  have hleft := hpart first (List.sublist_append_left first second)
  have hright := hpart second (List.sublist_append_right first second)
  refine hparts.mpr ⟨?_, ?_⟩
  · rintro row hrow ⟨n, hid, -⟩
    rw [piecesAmong_eq_one (List.mem_append_left second hrow) hid hrows, piecesAmong_eq_one hrow hid hleft]
  · rintro row hrow ⟨n, hid, -⟩
    rw [piecesAmong_eq_one (List.mem_append_right first hrow) hid hrows,
      piecesAmong_eq_one hrow hid hright]

/-- One record that comes once more than a piece has numbers: its tag is found twice. -/
theorem annotation_of_parts_repeated :
    ∃ whole left right,
      (annotate (List.replicate 500 [("id", Json.ofInt 5)] ++ [[("id", Json.ofInt 5)]])).resultOn
          Database.sample = .ok whole ∧
        (annotate (List.replicate 500 [("id", Json.ofInt 5)])).resultOn Database.sample = .ok left ∧
        (annotate [[("id", Json.ofInt 5)]]).resultOn Database.sample = .ok right ∧
        whole ≠ left ++ right ∧ whole.map Entry.tags = List.replicate 501 ["robot", "robot"] := by
  generalize hrecord : [("id", Json.ofInt 5)] = record
  have hget : Record.get? record "id" = some (.ofInt 5) := by
    rw [← hrecord]
    rfl
  have hid := Record.wholeId?_of_get? hget
  have hnumbered : Record.IsNumbered record := ⟨5, hget, by decide⟩
  have htags : Database.sample.linkedNames .tag 5 = ["robot"] := by decide +kernel
  -- An identifier that comes `count` times is in every piece of 500.
  have hpieces : ∀ count, Record.piecesAmong (List.replicate count record) record = (count + 499) / 500 := by
    intro count
    have htexts : idTexts (List.replicate count record) = List.replicate count (toString (5 : Int)) := by
      rw [idTexts, List.filterMap_replicate_of_some hid, List.map_replicate]
    simp only [Record.piecesAmong, hid, htexts, piecesWith_replicate]
  have happend : List.replicate 500 record ++ [record] = List.replicate 501 record :=
    List.replicate_succ'.symm
  have hfirst : ∀ row ∈ List.replicate 500 record, Record.IsNumbered row := fun row hrow =>
    List.eq_of_mem_replicate hrow ▸ hnumbered
  have hlast : ∀ row ∈ [record], Record.IsNumbered row := fun row hrow =>
    List.mem_singleton.mp hrow ▸ hnumbered
  obtain ⟨whole, left, right, hwhole, hleft, hright, hentries, hparts, -⟩ :=
    annotation_of_parts Database.sample_sound hfirst hlast
  refine ⟨whole, left, right, hwhole, hleft, hright, ?_, ?_⟩
  · rw [Ne, hparts]
    rintro ⟨-, hsecond⟩
    have htwice := hsecond record List.mem_cons_self ⟨5, hid, Or.inl (by simp [htags])⟩
    rw [happend, hpieces] at htwice
    exact absurd (htwice.trans (hpieces 1)) (by decide)
  · have hnames : (Database.sample.entryAmong (List.replicate 501 record) record).tags =
        ["robot", "robot"] := by
      have htwice := hpieces 501
      simp only [Record.piecesAmong, hid] at htwice
      simp only [Database.entryAmong, Entry.ofRecord, Database.namesAmong, hid, htwice, htags]
      decide
    rw [hentries, happend, List.map_replicate, List.map_replicate, hnames]

end ComicCatalog
