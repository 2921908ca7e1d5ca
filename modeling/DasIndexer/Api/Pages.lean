import DasIndexer.Api.Requests

namespace DasIndexer
open Sql Rpc

section Joins
variable {db : Db}

theorem mem_assets {asset : Pubkey × AssetRow} : asset ∈ db.assets ↔ db.asset.lookup asset.1 = some asset.2 := by
  rw [Db.assets, List.mem_map]
  constructor
  · rintro ⟨entry, member, rfl⟩
    exact AList.mem_lookup_iff.mpr member
  · intro stored
    exact ⟨⟨asset.1, asset.2⟩, AList.mem_lookup_iff.mp stored, rfl⟩

theorem mem_leftJoin {α β : Type} {left : List α} {right : List β} {on : α → β → Bool} {pair : α × Option β} :
    pair ∈ leftJoin left right on ↔ pair.1 ∈ left ∧
      ((∃ b ∈ right, on pair.1 b = true ∧ pair.2 = some b) ∨ pair.2 = none ∧ right.any (on pair.1) = false) := by
  rw [leftJoin, List.mem_flatMap]
  constructor
  · rintro ⟨a, inLeft, member⟩
    split at member
    · obtain ⟨b, inRight, rfl⟩ := List.mem_map.mp member
      obtain ⟨inTable, matching⟩ := List.mem_filter.mp inRight
      exact ⟨inLeft, Or.inl ⟨b, inTable, matching, rfl⟩⟩
    · rename_i alone
      rw [List.mem_singleton] at member
      subst member
      exact ⟨inLeft, Or.inr ⟨rfl, Bool.eq_false_iff.mpr alone⟩⟩
  · obtain ⟨a, partner⟩ := pair
    rintro ⟨inLeft, matched | alone⟩
    · obtain ⟨b, inRight, matching, rfl⟩ := matched
      refine ⟨a, inLeft, ?_⟩
      rw [if_pos (List.any_eq_true.mpr ⟨b, inRight, matching⟩)]
      exact List.mem_map.mpr ⟨b, List.mem_filter.mpr ⟨inRight, matching⟩, rfl⟩
    · obtain ⟨rfl, noPartner⟩ := alone
      refine ⟨a, inLeft, ?_⟩
      rw [if_neg (Bool.eq_false_iff.mp noPartner)]
      exact List.mem_singleton.mpr rfl

/-- A join does not change the asset of a row. -/
theorem join_asset {relation : Relation} {rows : List Joined} {row : Joined} (member : row ∈ relation.join db rows) :
    ∃ before ∈ rows, before.asset = row.asset := by
  cases relation with
  | assetData | assetAuthority | assetCreators | assetGrouping | tokenAccounts =>
    obtain ⟨pair, inJoin, rfl⟩ := List.mem_map.mp member
    exact ⟨pair.1, (mem_leftJoin.mp inJoin).1, rfl⟩

theorem foldl_join_stored (joins : List Relation) {rows : List Joined}
    (stored : ∀ row ∈ rows, db.asset.lookup row.asset.1 = some row.asset.2) :
    ∀ row ∈ joins.foldl (fun rows relation => relation.join db rows) rows,
      db.asset.lookup row.asset.1 = some row.asset.2 := by
  induction joins generalizing rows with
  | nil => exact stored
  | cons relation rest ih =>
    refine ih (fun row inJoin => ?_)
    obtain ⟨before, inRows, same⟩ := join_asset inJoin
    rw [← same]
    exact stored before inRows

theorem joined_stored {joins : List Relation} {row : Joined} (member : row ∈ joined db joins) :
    db.asset.lookup row.asset.1 = some row.asset.2 := by
  refine foldl_join_stored joins (fun row inRows => ?_) row member
  obtain ⟨asset, inAssets, rfl⟩ := List.mem_map.mp inRows
  exact mem_assets.mp inAssets

end Joins

section Order
variable (db : ReadDb) (column : AssetColumn) (direction : Order)

/-- The order of a listing on the ids of its assets. -/
def sortsBefore (id other : Pubkey) : Prop :=
  match direction with
  | .asc => sortKey db column (id, db.assetOrDefault id) < sortKey db column (other, db.assetOrDefault other)
  | .desc => sortKey db column (other, db.assetOrDefault other) < sortKey db column (id, db.assetOrDefault id)

instance : DecidableRel (sortsBefore db column direction) := fun _ _ =>
  match direction with
  | .asc => inferInstanceAs (Decidable (_ < _))
  | .desc => inferInstanceAs (Decidable (_ < _))

instance : Std.Irrefl (sortsBefore db column direction) where
  irrefl id := by
    cases direction with
    | asc => exact lt_irrefl _
    | desc => exact lt_irrefl _

instance : IsTrans Pubkey (sortsBefore db column direction) where
  trans id other third := by
    cases direction with
    | asc => exact lt_trans
    | desc => exact fun first second => lt_trans second first

theorem sortKey_injective {id other : Pubkey} {row otherRow : AssetRow}
    (same : sortKey db column (id, row) = sortKey db column (other, otherRow)) : id = other :=
  pubkey_eq_iff.mp (Prod.mk.inj (toLex_inj.mp same)).2

/-- `ORDER BY` sorts the ids. -/
theorem rows_sorted {stmt : Select Joined} (order : stmt.orderBy = some (orderBy db column direction))
    (stored : ∀ row ∈ stmt.source, db.asset.lookup row.asset.1 = some row.asset.2) :
    Paging.Sorted (sortsBefore db column direction) (stmt.rows.map (fun row => row.asset.1)) := by
  have total : Std.Total (fun row other : Joined => orderBy db column direction row other = true) := ⟨by
    intro row other
    cases direction with
    | asc => simpa [orderBy] using le_total _ _
    | desc => simpa [orderBy] using le_total _ _⟩
  have transitive : IsTrans Joined (fun row other => orderBy db column direction row other = true) := ⟨by
    intro row other third
    cases direction with
    | asc => simpa [orderBy] using le_trans
    | desc => simpa [orderBy] using fun first second => le_trans second first⟩
  have isRows : stmt.rows = (stmt.source.filter stmt.keeps).insertionSort
      (fun row other => orderBy db column direction row other) := by
    rw [Select.rows, order]
  rw [Paging.Sorted, List.pairwise_map, isRows]
  refine (List.pairwise_insertionSort _ _).imp_of_mem (fun {row other} inRows inOthers ordered => ?_)
  have keys : ∀ row ∈ (stmt.source.filter stmt.keeps).insertionSort
        (fun row other => orderBy db column direction row other),
      sortKey db column (row.asset.1, db.assetOrDefault row.asset.1) = sortKey db column row.asset := by
    intro row member
    have inSource := (List.mem_filter.mp ((List.perm_insertionSort _ _).mem_iff.mp member)).1
    rw [Db.assetOrDefault, stored row inSource, Option.getD_some]
  by_cases same : row.asset.1 = other.asset.1
  · exact Or.inl same
  · refine Or.inr ?_
    have different : sortKey db column row.asset ≠ sortKey db column other.asset :=
      fun equal => same (sortKey_injective db column equal)
    cases direction with
    | asc =>
      have ordered : sortKey db column row.asset ≤ sortKey db column other.asset := of_decide_eq_true ordered
      show sortKey _ _ _ < sortKey _ _ _
      rw [keys row inRows, keys other inOthers]
      exact lt_of_le_of_ne ordered different
    | desc =>
      have ordered : sortKey db column other.asset ≤ sortKey db column row.asset := of_decide_eq_true ordered
      show sortKey _ _ _ < sortKey _ _ _
      rw [keys row inRows, keys other inOthers]
      exact lt_of_le_of_ne ordered different.symm

theorem sortsBefore_id_asc {id other : Pubkey} :
    sortsBefore db .id .asc id other ↔ byteaKey id.bytes < byteaKey other.bytes := by
  rw [sortsBefore, sortKey, sortKey, Prod.Lex.toLex_lt_toLex]
  simp

theorem sortsBefore_id_desc {id other : Pubkey} :
    sortsBefore db .id .desc id other ↔ byteaKey other.bytes < byteaKey id.bytes := by
  rw [sortsBefore, sortKey, sortKey, Prod.Lex.toLex_lt_toLex]
  simp

/-- One more condition on the id keeps the order of the others. -/
theorem rows_filter_ids {stmt : Select Joined} (order : stmt.orderBy = some (orderBy db column direction))
    (stored : ∀ row ∈ stmt.source, db.asset.lookup row.asset.1 = some row.asset.2) (condition : Joined → Truth)
    (p : Pubkey → Bool) (onId : ∀ row, (condition row).holds = p row.asset.1) :
    (stmt.filter condition).rows.map (fun row => row.asset.1) =
      (stmt.rows.map (fun row => row.asset.1)).filter p := by
  refine @List.Perm.eq_of_pairwise _ (fun x y => x = y ∨ sortsBefore db column direction x y) _ _ ?_ ?_ ?_ ?_
  · intro x y _ _ up down
    rcases up with same | forth
    · exact same
    · rcases down with same | back
      · exact same.symm
      · exact (Paging.before_asymm forth back).elim
  · exact rows_sorted db column direction order stored
  · exact List.Pairwise.filter _ (rows_sorted db column direction order stored)
  · rw [List.filter_map]
    refine ((stmt.rows_filter_perm condition).trans (.of_eq ?_)).map _
    exact List.filter_congr (fun row _ => onId row)

end Order

section Pages
variable (db : ReadDb) (condition : Joined → Truth) (joins : List Relation) (column : AssetColumn)
  (direction : Order) (limit : Nat)

/-- The ids of the joined rows that satisfy the condition, in the order of the
listing: an asset comes once for every row. -/
def matchingIds : List Pubkey :=
  (assetSelect db condition joins (some column) direction).rows.map (fun row => row.asset.1)

theorem matchingIds_sorted :
    Paging.Sorted (sortsBefore db column direction) (matchingIds db condition joins column direction) :=
  rows_sorted db column direction rfl (fun _ member => joined_stored member)

theorem mem_matchingIds {id : Pubkey} : id ∈ matchingIds db condition joins column direction ↔
    ∃ row ∈ joined db.toDb joins, row.asset.1 = id ∧ (condition row).holds = true := by
  rw [matchingIds, List.mem_map]
  constructor
  · rintro ⟨row, member, rfl⟩
    obtain ⟨inJoin, keeps⟩ := List.mem_filter.mp ((Select.rows_perm _).mem_iff.mp member)
    exact ⟨row, inJoin, rfl, by simpa [Select.keeps, assetSelect] using keeps⟩
  · rintro ⟨row, inJoin, rfl, holds⟩
    refine ⟨row, (Select.rows_perm _).mem_iff.mpr (List.mem_filter.mpr ⟨inJoin, ?_⟩), rfl⟩
    simpa [Select.keeps, assetSelect] using holds

/-- The filter for a cursor keeps the rows that sort after it. -/
theorem paginate_cursor (cursor : Option Pubkey) :
    ∃ stmt, paginate (.cursor ⟨cursor.map Bytes32.bytes⟩) limit
        (assetSelect db condition joins (some .id) direction) direction
        (.bytea (fun row => row.asset.1.bytes)) = .ok stmt ∧
      stmt.all.map (fun row => row.asset.1) = (Paging.rowsAfter (sortsBefore db .id direction) cursor
        (matchingIds db condition joins .id direction)).take limit := by
  have stored : ∀ row ∈ (assetSelect db condition joins (some .id) direction).source,
      db.asset.lookup row.asset.1 = some row.asset.2 := fun _ member => joined_stored member
  cases cursor with
  | none =>
    cases direction with
    | asc | desc => exact ⟨_, rfl, by rw [Paging.rowsAfter, matchingIds, ← List.map_take]; rfl⟩
  | some c =>
    cases direction with
    | asc =>
      have kept := rows_filter_ids db .id .asc rfl stored (fun row =>
        Sql.gt (some (byteaKey row.asset.1.bytes)) (some (byteaKey c.bytes)))
        (fun id => sortsBefore db .id .asc c id) (fun row => by
          rw [holds_gt, Option.any_some, decide_eq_decide]
          exact (sortsBefore_id_asc db).symm)
      refine ⟨_, rfl, ?_⟩
      rw [Paging.rowsAfter, matchingIds, ← kept, ← List.map_take]
      rfl
    | desc =>
      have kept := rows_filter_ids db .id .desc rfl stored (fun row =>
        Sql.lt (some (byteaKey row.asset.1.bytes)) (some (byteaKey c.bytes)))
        (fun id => sortsBefore db .id .desc c id) (fun row => by
          rw [Sql.lt, Sql.compare, Truth.holds_ofBool, decide_eq_decide]
          exact (sortsBefore_id_desc db).symm)
      refine ⟨_, rfl, ?_⟩
      rw [Paging.rowsAfter, matchingIds, ← kept, ← List.map_take]
      rfl

/-- Pagination adds conditions to a statement and drops none. -/
theorem paginate_narrows {R : Type} {pagination : Pagination} {limit : Nat} {stmt built : Select R}
    {direction : Order} {read : R → Bytes}
    (isBuilt : paginate pagination limit stmt direction (.bytea read) = .ok built) :
    built.source = stmt.source ∧ stmt.filters ⊆ built.filters := by
  have above : ∀ (stmt : Select R) bound, ∃ after, filterAbove stmt (.bytea read) bound = .ok after ∧
      after.source = stmt.source ∧ stmt.filters ⊆ after.filters := by
    intro stmt bound
    cases bound with
    | none => exact ⟨stmt, rfl, rfl, List.Subset.refl _⟩
    | some bound => exact ⟨_, rfl, rfl, List.subset_append_left _ _⟩
  have below : ∀ (stmt : Select R) bound, ∃ after, filterBelow stmt (.bytea read) bound = .ok after ∧
      after.source = stmt.source ∧ stmt.filters ⊆ after.filters := by
    intro stmt bound
    cases bound with
    | none => exact ⟨stmt, rfl, rfl, List.Subset.refl _⟩
    | some bound => exact ⟨_, rfl, rfl, List.subset_append_left _ _⟩
  cases pagination with
  | keyset before after =>
    obtain ⟨first, isFirst, sameFirst, keptFirst⟩ := below stmt before
    obtain ⟨second, isSecond, sameSecond, keptSecond⟩ := above first after
    simp only [paginate, isFirst, isSecond, bind, Except.bind, pure, Except.pure] at isBuilt
    cases isBuilt
    exact ⟨sameSecond.trans sameFirst, fun _ member => keptSecond (keptFirst member)⟩
  | page page =>
    simp only [paginate, bind, Except.bind, pure, Except.pure] at isBuilt
    cases isBuilt
    split
    · exact ⟨rfl, List.Subset.refl _⟩
    · exact ⟨rfl, List.Subset.refl _⟩
  | cursor cursor =>
    cases direction with
    | asc =>
      obtain ⟨after, isAfter, same, kept⟩ := above stmt cursor.id
      simp only [paginate, isAfter, bind, Except.bind, pure, Except.pure] at isBuilt
      cases isBuilt
      exact ⟨same, kept⟩
    | desc =>
      obtain ⟨after, isAfter, same, kept⟩ := below stmt cursor.id
      simp only [paginate, isAfter, bind, Except.bind, pure, Except.pure] at isBuilt
      cases isBuilt
      exact ⟨same, kept⟩

/-- However they are paginated, the assets found have a joined row that satisfies
the condition. -/
theorem findAssets_sound {sortBy : Option AssetColumn} {pagination : Pagination} {assets : List (Pubkey × AssetRow)}
    (found : findAssets db condition joins sortBy direction pagination limit = .ok assets) :
    ∀ asset ∈ assets, ∃ row ∈ joined db.toDb joins, row.asset = asset ∧ (condition row).holds = true := by
  unfold findAssets at found
  split at found
  · cases built : paginate pagination limit (assetSelect db condition joins sortBy direction) direction
      (.bytea (fun row => row.asset.1.bytes)) with
    | error problem =>
      rw [built] at found
      cases found
    | ok stmt =>
      rw [built] at found
      cases found
      obtain ⟨source, filters⟩ := paginate_narrows built
      intro asset member
      obtain ⟨row, inAll, isAsset⟩ := List.mem_map.mp member
      have inRows := (Select.rows_perm stmt).mem_iff.mp (stmt.all_subset inAll)
      obtain ⟨inSource, keeps⟩ := List.mem_filter.mp inRows
      rw [source] at inSource
      exact ⟨row, inSource, isAsset, List.all_eq_true.mp keeps condition (filters List.mem_cons_self)⟩
  · cases found

theorem findAssets_stored {sortBy : Option AssetColumn} {pagination : Pagination} {assets : List (Pubkey × AssetRow)}
    (found : findAssets db condition joins sortBy direction pagination limit = .ok assets) :
    ∀ asset ∈ assets, db.asset.lookup asset.1 = some asset.2 := by
  intro asset member
  obtain ⟨row, inJoin, isAsset, -⟩ := findAssets_sound db condition joins direction limit found asset member
  rw [← isAsset]
  exact joined_stored inJoin

variable {joins}

theorem findAssets_page (once : joins.Nodup) (page : Nat) :
    ∃ assets, findAssets db condition joins (some column) direction (.page (page + 1)) limit = .ok assets ∧
      assets.map Prod.fst = Paging.pageOf limit (matchingIds db condition joins column direction) page := by
  refine ⟨_, by rw [findAssets, if_pos once]; rfl, ?_⟩
  rw [List.map_map, Paging.pageOf, matchingIds, ← List.map_drop, ← List.map_take]
  rfl

theorem findAssets_cursor (once : joins.Nodup) (cursor : Option Pubkey) :
    ∃ assets, findAssets db condition joins (some .id) direction (.cursor ⟨cursor.map Bytes32.bytes⟩) limit =
        .ok assets ∧
      assets.map Prod.fst = (Paging.rowsAfter (sortsBefore db .id direction) cursor
        (matchingIds db condition joins .id direction)).take limit := by
  obtain ⟨stmt, built, ids⟩ := paginate_cursor db condition joins direction limit cursor
  refine ⟨stmt.all.map Joined.asset, ?_, ?_⟩
  · rw [findAssets, if_pos once, built]
    rfl
  · rw [List.map_map, ← ids]
    rfl

end Pages

section Rendered
variable {db : ReadDb}

/-- Whether an asset can be shown; the others are reported as errors. -/
def rendered (db : ReadDb) (id : Pubkey) : Bool := (db.assetOrDefault id).specificationAssetClass.isSome

theorem related_renders {assets : List (Pubkey × AssetRow)} {options : Options} {requiredCreator : Option Bytes}
    (stored : ∀ asset ∈ assets, db.asset.lookup asset.1 = some asset.2) :
    ∀ entry ∈ getRelatedForAssets db.toDb assets options requiredCreator,
      Renders entry.2 = rendered db entry.1 := by
  intro entry member
  rw [Renders, rendered, Db.assetOrDefault, getRelatedForAssets_asset stored member, Option.getD_some]

/-- The assets of a page are its items and its errors, both in the order of the
page. -/
theorem items_of_page [Crates] (options : Options) (limit : Nat) {assets : List (Pubkey × FullAsset)}
    (renders : ∀ entry ∈ assets, Renders entry.2 = rendered db entry.1) (pagination : Pagination) :
    (buildAssetResponse assets limit pagination options).items.map Asset.id =
        ((assets.map Prod.fst).filter (rendered db)).map Bytes32.toBase58 ∧
      (buildAssetResponse assets limit pagination options).errors.map DasError.id =
        ((assets.map Prod.fst).filter (fun id => !rendered db id)).map Bytes32.toBase58 := by
  obtain ⟨items, errors⟩ := assetListToRpc_ids options assets
  constructor
  · refine items.trans ?_
    rw [List.filter_map, List.map_map, List.filter_congr (fun entry member => renders entry member)]
    rfl
  · refine errors.trans ?_
    rw [List.filter_map, List.map_map,
      List.filter_congr (fun entry member => congrArg Bool.not (renders entry member))]
    rfl

end Rendered

end DasIndexer
