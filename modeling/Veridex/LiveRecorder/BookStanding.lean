import Veridex.LiveRecorder.BookSource

/-!
# Which book the streamed source serves

A frame that is processed leaves each token it names with the book `standingAfter` computes
(`applyFrame_ok`), and its entry with that book's snapshot or gapped (`refresh_touched`); a token it
does not name keeps both. A frame that raises gaps the entries only: the books stay seeded, half
merged where it raised in a merge, and the next delta shows them again.
-/

namespace Veridex.WsBook

open Veridex.Py Veridex.Lib

variable {textOf : Value → String}

/-- What a state retains. -/
def BookState.book (state : BookState) : StandingBook := ⟨state.bids, state.asks, state.lastTs⟩

/-! ## One token's merge -/

theorem change_book (state : BookState) (side : BookSide) (price size : PyFloat)
    {change : Payload} (h : levelIn change = .ok (some (price, size))) :
    state.book.change (side, change) = some (state.change side price size).book := by
  cases side <;> simp [StandingBook.change, h, BookState.change, BookState.book]

theorem mergeChanges_ok {changes : List Payload} : ∀ {state state' : BookState}
    {last last' : Option Payload},
    mergeChanges textOf state last changes = (.ok (some last'), state') →
      (sided textOf changes).foldlM StandingBook.change state.book = some state'.book ∧
      last' = ((sided textOf changes).getLast?.map Prod.snd).or last ∧
      state'.seeded = state.seeded := by
  induction changes with
  | nil =>
    intro state state' last last' h
    simp only [mergeChanges, Prod.mk.injEq, Except.ok.injEq, Option.some.injEq] at h
    obtain ⟨rfl, rfl⟩ := h
    exact ⟨rfl, rfl, rfl⟩
  | cons change changes ih =>
    intro state state' last last' h
    rw [mergeChanges] at h
    cases hside : sideOf textOf change with
    | none =>
      simp only [hside] at h
      have hsided : sided textOf (change :: changes) = sided textOf changes := by
        simp [sided, hside]
      rw [hsided]
      exact ih h
    | some side =>
      simp only [hside] at h
      have hsided : sided textOf (change :: changes) = (side, change) :: sided textOf changes := by
        simp [sided, hside]
      rw [hsided]
      cases hlevel : levelIn change with
      | error e => simp [hlevel] at h
      | ok level => cases level with
        | none => simp [hlevel] at h
        | some level =>
          simp only [hlevel] at h
          obtain ⟨hfold, hlast, hseeded⟩ := ih h
          refine ⟨?_, ?_, ?_⟩
          · rw [List.foldlM_cons, change_book state side level.1 level.2 hlevel]
            exact hfold
          · rw [hlast, List.getLast?_cons]
            cases (sided textOf changes).getLast? <;> simp
          · rw [hseeded]
            cases side <;> rfl

theorem topOfBookMatches_eq_ok {state : BookState} {change : Payload}
    (h : topOfBookMatches state.recompute (some change) = .ok true) :
    state.book.checks change = true := by
  simp only [topOfBookMatches, BookState.recompute] at h
  obtain ⟨bid, hbid, h⟩ := bind_eq_ok.mp h
  cases bid with
  | false => simp [pure, Except.pure] at h
  | true =>
    simp only [if_true] at h
    simp [StandingBook.checks, BookState.book, hbid, h, Except.toOption]

/-- A token's part of a delta either merges into the book as a whole, or discards it. -/
theorem mergeAsset_ok {ts : ℤ} {state state' : BookState} {changes : List Payload} {b : Bool}
    (h : mergeAsset textOf ts state changes = (.ok b, state')) (hseeded : state'.seeded = true) :
    state.book.merge textOf ts changes = some state'.book := by
  unfold mergeAsset at h
  split_ifs at h with hts
  · simp only [Prod.mk.injEq] at h
    rw [← h.2] at hseeded
    simp [BookState.invalidate] at hseeded
  · rcases hmerge : mergeChanges textOf state none changes with ⟨e | _ | last, merged⟩
    · simp [hmerge] at h
    · simp only [hmerge, Prod.mk.injEq] at h
      rw [← h.2] at hseeded
      simp [BookState.invalidate] at hseeded
    · obtain ⟨hfold, hlast, -⟩ := mergeChanges_ok hmerge
      simp only [hmerge] at h
      rcases hmatch : topOfBookMatches { merged with lastTs := ts }.recompute last with e | _ | _
      · simp [hmatch] at h
      · simp only [hmatch, Prod.mk.injEq] at h
        rw [← h.2] at hseeded
        simp [BookState.invalidate] at hseeded
      · simp only [hmatch, Prod.mk.injEq, Except.ok.injEq] at h
        have hchecks : ((sided textOf changes).getLast?.all fun change =>
            merged.book.checks change.2) = true := by
          cases hgot : (sided textOf changes).getLast? with
          | none => rfl
          | some change =>
            rw [hgot] at hlast
            subst hlast
            exact topOfBookMatches_eq_ok hmatch
        have hnot : ¬ ts < state.book.ts := hts
        rw [StandingBook.merge, if_neg hnot, hfold]
        simp only [hchecks, if_true]
        rw [← h.2]
        rfl

/-! ## The book a frame carries -/

theorem field_renameSide {name key : String} (h : key ≠ name) (old : String) (payload : Payload) :
    field (renameSide name old payload) key = field payload key := by
  unfold renameSide
  split
  · unfold field
    rw [List.lookup_cons, beq_false_of_ne h]
  · rfl

theorem field_canonicalSides_timestamp (payload : Payload) :
    field (canonicalSides payload) "timestamp" = field payload "timestamp" := by
  rw [canonicalSides, field_renameSide (by decide), field_renameSide (by decide)]

theorem BookSnapshot.make_eq_ok {tokenId ref : Value} {ts : ℤ} {tick increment : PyFloat}
    {bids asks : List BookLevel} {snap : BookSnapshot}
    (h : BookSnapshot.make tokenId ref ts tick increment bids asks = .ok snap) :
    snap.bids = bids ∧ snap.asks = asks := by
  unfold BookSnapshot.make at h
  split at h
  · obtain rfl := Except.ok.inj h
    exact ⟨rfl, rfl⟩
  · simp at h

theorem bookIn_of_snapshot {payload : Payload} {tokenId ref : Value} {tick increment : PyFloat}
    {snap : BookSnapshot} {ts : ℤ}
    (hsnap : bookSnapshotFromJson (canonicalSides payload) tokenId ref tick increment = .ok snap)
    (hts : coerceMs (field payload "timestamp") = .ok ts) :
    bookIn payload = some ⟨ladderOf snap.bids, ladderOf snap.asks, ts⟩ := by
  unfold bookSnapshotFromJson at hsnap
  obtain ⟨bookTs, -, hsnap⟩ := bind_eq_ok.mp hsnap
  obtain ⟨asks, hasks, hsnap⟩ := bind_eq_ok.mp hsnap
  obtain ⟨bids, hbids, hsnap⟩ := bind_eq_ok.mp hsnap
  obtain ⟨hsnapBids, hsnapAsks⟩ := BookSnapshot.make_eq_ok hsnap
  simp [bookIn, field_canonicalSides_timestamp, hts, hasks, hbids, Except.toOption, hsnapBids,
    hsnapAsks]

/-! ## The fan-out of a delta -/

theorem addChange_keys (asset : String) (change : Payload)
    (byAsset : List (String × List Payload)) (token : String) :
    token ∈ (addChange asset change byAsset).map Prod.fst ↔
      token = asset ∨ token ∈ byAsset.map Prod.fst := by
  induction byAsset with
  | nil => simp [addChange]
  | cons row byAsset ih =>
    obtain ⟨a, changes⟩ := row
    rw [addChange]
    split_ifs with ha
    · simp [ha]
    · rw [List.map_cons, List.map_cons, List.mem_cons, List.mem_cons, ih]
      tauto

theorem addChange_nodup (asset : String) (change : Payload) {byAsset : List (String × List Payload)}
    (h : (byAsset.map Prod.fst).Nodup) : ((addChange asset change byAsset).map Prod.fst).Nodup := by
  induction byAsset with
  | nil => simp [addChange]
  | cons row byAsset ih =>
    obtain ⟨a, changes⟩ := row
    rw [List.map_cons, List.nodup_cons] at h
    rw [addChange]
    split_ifs with ha
    · rw [List.map_cons, List.nodup_cons]
      exact h
    · rw [List.map_cons, List.nodup_cons, addChange_keys]
      refine ⟨?_, ih h.2⟩
      rintro (heq | hmem)
      · exact ha heq
      · exact h.1 hmem

/-- The assets a delta is fanned out to are those its changes name. -/
theorem fanOut_ok {changes : List Value} : ∀ {byAsset result : List (String × List Payload)},
    fanOut byAsset changes = .ok result → (byAsset.map Prod.fst).Nodup →
      (result.map Prod.fst).Nodup ∧
      ∃ assets, (changes.mapM fun change => do assetKey (← change.get "asset_id")) = .ok assets ∧
        ∀ token, token ∈ result.map Prod.fst ↔
          token ∈ byAsset.map Prod.fst ∨ some token ∈ assets := by
  induction changes with
  | nil =>
    intro byAsset result h hnodup
    obtain rfl : byAsset = result := by simpa [fanOut] using h
    exact ⟨hnodup, [], rfl, by simp⟩
  | cons change changes ih =>
    intro byAsset result h hnodup
    rw [fanOut] at h
    obtain ⟨id, hid, h⟩ := bind_eq_ok.mp h
    obtain ⟨asset, hasset, h⟩ := bind_eq_ok.mp h
    obtain ⟨items, rfl⟩ : ∃ items, change = .dict items := by
      cases change <;> simp [Value.get] at hid
      exact ⟨_, rfl⟩
    have hhead : (do assetKey (← (Value.dict items).get "asset_id")) = .ok asset :=
      bind_eq_ok.mpr ⟨id, hid, hasset⟩
    cases asset with
    | none =>
      obtain ⟨hn, assets, hassets, hkeys⟩ := ih h hnodup
      refine ⟨hn, none :: assets, ?_, ?_⟩
      · rw [List.mapM_cons, hhead, hassets]
        rfl
      · intro token
        rw [hkeys]
        simp
    | some asset =>
      obtain ⟨hn, assets, hassets, hkeys⟩ := ih h (addChange_nodup asset items hnodup)
      refine ⟨hn, some asset :: assets, ?_, ?_⟩
      · rw [List.mapM_cons, hhead, hassets]
        rfl
      · intro token
        rw [hkeys, addChange_keys, List.mem_cons, Option.some.injEq]
        tauto

/-! ## What a frame does to one token's book -/

namespace BookStateMaintainer

variable {maintainer maintainer' : BookStateMaintainer}

@[simp] theorem setBook_books_self (token : String) (state : BookState) :
    (maintainer.setBook token state).books token = some state := by
  simp [setBook]

theorem setBook_books_of_ne {token asset : String} (h : token ≠ asset) (state : BookState) :
    (maintainer.setBook asset state).books token = maintainer.books token := by
  simp [setBook, h]

@[simp] theorem emitIfMoved_books (state : BookState) (recvTs : ℤ) (oldMid : Option PyFloat) :
    (maintainer.emitIfMoved state recvTs oldMid).2.books = maintainer.books := by
  unfold emitIfMoved
  split
  · rfl
  · split_ifs <;> rfl

/-- A delta that is processed merges each token's own changes into its seeded book, and touches no
other book. -/
theorem mergeAssets_ok {recvTs ts : ℤ} {byAsset : List (String × List Payload)} :
    ∀ {maintainer maintainer' : BookStateMaintainer} {emitted : List BookMidChange},
    mergeAssets textOf recvTs ts maintainer byAsset = (.ok emitted, maintainer') →
    (byAsset.map Prod.fst).Nodup → ∀ token,
      (token ∉ byAsset.map Prod.fst → maintainer'.books token = maintainer.books token) ∧
      ∀ changes, byAsset.lookup token = some changes →
        ∀ state', maintainer'.books token = some state' → state'.seeded = true →
          ∃ state, maintainer.books token = some state ∧ state.seeded = true ∧
            state.book.merge textOf ts changes = some state'.book := by
  induction byAsset with
  | nil =>
    intro maintainer maintainer' emitted h _ token
    simp only [mergeAssets, Prod.mk.injEq] at h
    exact ⟨fun _ => by rw [h.2], by simp⟩
  | cons row byAsset ih =>
    obtain ⟨asset, changes⟩ := row
    intro maintainer maintainer' emitted h hnodup token
    rw [List.map_cons, List.nodup_cons] at hnodup
    -- the books after this asset's part, and what it made of its own book
    have hpart : ∃ (middle : BookStateMaintainer) (rest : List BookMidChange),
        mergeAssets textOf recvTs ts middle byAsset = (.ok rest, maintainer') ∧
        (∀ t, t ≠ asset → middle.books t = maintainer.books t) ∧
        ∀ state', middle.books asset = some state' → state'.seeded = true →
          ∃ state, maintainer.books asset = some state ∧ state.seeded = true ∧
            state.book.merge textOf ts changes = some state'.book := by
      rw [mergeAssets] at h
      cases hbook : maintainer.books asset with
      | none =>
        simp only [hbook] at h
        exact ⟨maintainer, emitted, h, fun _ _ => rfl, by simp [hbook]⟩
      | some state =>
        simp only [hbook] at h
        split_ifs at h with hseeded
        · rcases hmerge : mergeAsset textOf ts state changes with ⟨e | _ | _, merged⟩
          · simp [hmerge] at h
          · simp only [hmerge] at h
            refine ⟨_, _, h, fun t ht => setBook_books_of_ne ht merged, ?_⟩
            rintro state' hstate' hseeded'
            obtain rfl : merged = state' := by simpa using hstate'
            exact ⟨state, rfl, hseeded, mergeAsset_ok hmerge hseeded'⟩
          · simp only [hmerge] at h
            rcases hrest : mergeAssets textOf recvTs ts ((maintainer.setBook asset merged).emitIfMoved
                merged recvTs state.mid).2 byAsset with ⟨e | rest, last⟩
            · simp [hrest, Except.map] at h
            · simp only [hrest, Except.map, Prod.mk.injEq] at h
              refine ⟨_, rest, h.2 ▸ hrest, ?_, ?_⟩
              · intro t ht
                rw [emitIfMoved_books]
                exact setBook_books_of_ne ht merged
              · rintro state' hstate' hseeded'
                obtain rfl : merged = state' := by simpa using hstate'
                exact ⟨state, rfl, hseeded, mergeAsset_ok hmerge hseeded'⟩
        · refine ⟨maintainer, emitted, h, fun _ _ => rfl, ?_⟩
          rintro state' hstate' hseeded'
          rw [hbook, Option.some.injEq] at hstate'
          exact absurd (hstate' ▸ hseeded') hseeded
    obtain ⟨middle, rest, hrest, hother, hown⟩ := hpart
    obtain ⟨hkeep, hmerged⟩ := ih hrest hnodup.2 token
    refine ⟨?_, ?_⟩
    · intro htoken
      rw [List.map_cons, List.mem_cons, not_or] at htoken
      rw [hkeep htoken.2, hother token htoken.1]
    · intro changes' hlookup state' hstate' hseeded'
      rw [List.lookup_cons] at hlookup
      by_cases htoken : token = asset
      · subst htoken
        obtain rfl : changes = changes' := by simpa using hlookup
        rw [hkeep hnodup.1] at hstate'
        exact hown state' hstate' hseeded'
      · rw [beq_false_of_ne htoken] at hlookup
        rw [← hother token htoken]
        exact hmerged changes' hlookup state' hstate' hseeded'

theorem getOrCreate_books {tokenId market : Value} {key : Option String} {state : BookState}
    (h : maintainer.getOrCreate tokenId market = (.ok (key, state), maintainer')) :
    assetKey tokenId = .ok key ∧ maintainer'.resolutions = maintainer.resolutions ∧
      (∀ token, key ≠ some token → maintainer'.books token = maintainer.books token) ∧
      ∀ token, key = some token → maintainer'.books token = some state ∧
        (state.seeded = true → maintainer.books token = some state) := by
  unfold getOrCreate at h
  rcases hkey : assetKey tokenId with e | _ | token
  · simp [hkey] at h
  · simp only [hkey, Prod.mk.injEq, Except.ok.injEq] at h
    obtain ⟨⟨rfl, rfl⟩, rfl⟩ := h
    exact ⟨rfl, rfl, fun _ _ => rfl, by simp⟩
  · simp only [hkey, Prod.mk.injEq, Except.ok.injEq] at h
    obtain ⟨⟨rfl, rfl⟩, rfl⟩ := h
    refine ⟨rfl, rfl, ?_, ?_⟩
    · intro t ht
      exact setBook_books_of_ne (fun heq => ht (by rw [heq])) _
    · intro t ht
      obtain rfl : token = t := by simpa using ht
      refine ⟨setBook_books_self _ _, ?_⟩
      intro hseeded
      cases hbook : maintainer.books token with
      | some state => rfl
      | none =>
        rw [hbook, Option.getD_none, newState] at hseeded
        split at hseeded <;> simp at hseeded

theorem assetKey_eq_some {tokenId : Value} {token : String} (h : assetKey tokenId = .ok (some token)) :
    tokenId = .str token := by
  cases tokenId <;> simp_all [assetKey]

/-- A `book` frame that is processed seeds its token's book with what it carries. -/
theorem applyBook_ok {frame : VenueBookFrame} {emitted : List BookMidChange}
    (h : maintainer.applyBook frame = (.ok emitted, maintainer')) (token : String) :
    (frame.tokenId ≠ .str token → maintainer'.books token = maintainer.books token) ∧
      (frame.tokenId = .str token → ∃ state, maintainer'.books token = some state ∧
        bookIn frame.payload = some state.book) := by
  obtain ⟨recvTs, eventType, tokenId, payload⟩ := frame
  by_cases hnone : tokenId = .none
  · subst hnone
    simp only [applyBook, Prod.mk.injEq] at h
    exact ⟨fun _ => by rw [h.2], by simp⟩
  · have happly := h
    unfold applyBook at happly
    split at happly
    · exact absurd (by assumption) hnone
    · split at happly
      · simp at happly
      · rename_i created key state middle hcreate
        obtain ⟨hkey, -, hother, hown⟩ := getOrCreate_books hcreate
        split at happly
        · simp at happly
        · rename_i snap hsnap
          split at happly
          · simp at happly
          · rename_i _ _ hts hnokey
            simp only [Prod.mk.injEq] at happly
            refine ⟨?_, ?_⟩
            · intro _
              rw [← happly.2]
              exact hother token (by simp)
            · rintro rfl
              simp [assetKey] at hkey
          · rename_i _ _ ts asset hts
            simp only [Prod.mk.injEq] at happly
            obtain rfl := assetKey_eq_some hkey
            refine ⟨?_, ?_⟩
            · intro hne
              have htoken : token ≠ asset := fun heq => hne (by rw [heq])
              rw [← happly.2, emitIfMoved_books, setBook_books_of_ne htoken]
              exact hother token (by simpa using Ne.symm htoken)
            · intro heq
              obtain rfl : asset = token := by simpa using heq
              refine ⟨state.seed snap ts, ?_, ?_⟩
              · rw [← happly.2, emitIfMoved_books, setBook_books_self]
              · exact bookIn_of_snapshot hsnap hts

/-- A `tick_size_change` frame that is processed keeps every seeded book. -/
theorem applyTickSize_ok {frame : VenueBookFrame}
    (h : maintainer.applyTickSize frame = (.ok (), maintainer')) (token : String) :
    (frame.tokenId ≠ .str token → maintainer'.books token = maintainer.books token) ∧
      ∀ state', maintainer'.books token = some state' → state'.seeded = true →
        ∃ state, maintainer.books token = some state ∧ state.seeded = true ∧
          state.book = state'.book := by
  obtain ⟨recvTs, eventType, tokenId, payload⟩ := frame
  have hsame : maintainer'.books token = maintainer.books token →
      ∀ state', maintainer'.books token = some state' → state'.seeded = true →
        ∃ state, maintainer.books token = some state ∧ state.seeded = true ∧
          state.book = state'.book := by
    intro heq state' hstate' hseeded'
    exact ⟨state', heq ▸ hstate', hseeded', rfl⟩
  by_cases hnone : tokenId = .none
  · subst hnone
    simp only [applyTickSize, Prod.mk.injEq] at h
    have heq : maintainer'.books token = maintainer.books token := by rw [h.2]
    exact ⟨fun _ => heq, hsame heq⟩
  · unfold applyTickSize at h
    split at h
    · exact absurd (by assumption) hnone
    · split at h
      · simp at h
      · rename_i created key state middle hcreate
        obtain ⟨hkey, -, hother, hown⟩ := getOrCreate_books hcreate
        -- the books are the created state's, with its tick at most
        have hbooks : ∃ state', state'.book = state.book ∧ state'.seeded = state.seeded ∧
            (∀ token, key ≠ some token → maintainer'.books token = middle.books token) ∧
            ∀ token, key = some token → maintainer'.books token = some state' := by
          split at h
          · obtain rfl : middle = maintainer' := by simpa using h
            exact ⟨state, rfl, rfl, fun _ _ => rfl, fun token hk => (hown token hk).1⟩
          · obtain rfl : middle = maintainer' := by simpa using h
            exact ⟨state, rfl, rfl, fun _ _ => rfl, fun token hk => (hown token hk).1⟩
          · split at h
            · simp at h
            · obtain rfl : middle = maintainer' := by simpa using h
              exact ⟨state, rfl, rfl, fun _ _ => rfl, fun token hk => (hown token hk).1⟩
            · rename_i _ _ tick asset _
              simp only [Prod.mk.injEq, true_and] at h
              refine ⟨{ state with tickSize := tick, minPriceIncrement := tick }, rfl, rfl, ?_, ?_⟩
              · intro t ht
                rw [← h]
                exact setBook_books_of_ne (fun heq => ht (by rw [heq])) _
              · intro t ht
                obtain rfl : asset = t := by simpa using ht
                rw [← h]
                exact setBook_books_self _ _
        obtain ⟨state', hbook, hseeded, hkeep, hset⟩ := hbooks
        by_cases hk : key = some token
        · subst hk
          refine ⟨fun hne => absurd (assetKey_eq_some hkey) hne, ?_⟩
          intro found hfound hfoundSeeded
          obtain rfl : state' = found := by simpa [hset token rfl] using hfound
          refine ⟨state, (hown token rfl).2 (hseeded ▸ hfoundSeeded), hseeded ▸ hfoundSeeded, ?_⟩
          exact hbook.symm
        · have heq : maintainer'.books token = maintainer.books token := by
            rw [hkeep token hk, hother token hk]
          exact ⟨fun _ => heq, hsame heq⟩

end BookStateMaintainer

/-! ## One delivery -/

theorem lookup_eq_some_of_mem {byAsset : List (String × List Payload)} {token : String}
    (h : token ∈ byAsset.map Prod.fst) : ∃ changes, byAsset.lookup token = some changes := by
  cases hlookup : byAsset.lookup token with
  | some changes => exact ⟨changes, rfl⟩
  | none =>
    rw [List.lookup_eq_none_iff] at hlookup
    obtain ⟨row, hrow, rfl⟩ := List.mem_map.mp h
    simpa using hlookup row hrow

theorem lookup_eq_none_of_notMem {byAsset : List (String × List Payload)} {token : String}
    (h : token ∉ byAsset.map Prod.fst) : byAsset.lookup token = none := by
  rw [List.lookup_eq_none_iff]
  intro row hrow
  have hne : token ≠ row.1 := fun heq => h (List.mem_map.mpr ⟨row, hrow, heq.symm⟩)
  simpa using hne

/-- A processed delta frame was fanned out to the tokens it names. -/
theorem changesByAsset_ok {payload : Payload} {byAsset : List (String × List Payload)}
    (h : changesByAsset payload = .ok byAsset) {recvTs : ℤ} {tokenId : Value} {ids : List String}
    (hids : frameTokenIds ⟨recvTs, .priceChange, tokenId, payload⟩ = .ok ids) :
    (byAsset.map Prod.fst).Nodup ∧ ∀ token, token ∈ byAsset.map Prod.fst ↔ token ∈ ids := by
  obtain ⟨changes, hchanges, hfan⟩ := bind_eq_ok.mp h
  obtain ⟨hnodup, assets, hassets, hkeys⟩ := fanOut_ok hfan (by simp)
  simp only [frameTokenIds] at hids
  obtain ⟨changes', hchanges', hids⟩ := bind_eq_ok.mp hids
  obtain rfl : changes = changes' := Except.ok.inj (hchanges.symm.trans hchanges')
  obtain ⟨assets', hassets', hids⟩ := bind_eq_ok.mp hids
  obtain rfl : assets = assets' := Except.ok.inj (hassets.symm.trans hassets')
  obtain rfl : assets.filterMap id = ids := Except.ok.inj hids
  refine ⟨hnodup, fun token => ?_⟩
  rw [hkeys]
  simp

/-- A processed frame leaves a token it does not name its book, and one it names the book
`standingAfter` makes of the seeded one before. -/
theorem applyFrame_ok {maintainer maintainer' : BookStateMaintainer} {frame : VenueBookFrame}
    {emitted : List BookMidChange} {ids : List String}
    (h : maintainer.applyFrame textOf frame = (.ok emitted, maintainer'))
    (hgap : frame.eventType ≠ .gap) (hids : frameTokenIds frame = .ok ids) (token : String)
    (order : List String) :
    (token ∉ ids → maintainer'.books token = maintainer.books token ∧
      ∀ book, standingAfter textOf token book ⟨frame, order, false⟩ = book) ∧
    (token ∈ ids → ∀ state', maintainer'.books token = some state' → state'.seeded = true →
      (frame.eventType = .book ∧
        ∀ book, standingAfter textOf token book ⟨frame, order, false⟩ = some state'.book) ∨
      (frame.eventType ≠ .book ∧ ∃ state, maintainer.books token = some state ∧
        state.seeded = true ∧
        standingAfter textOf token (some state.book) ⟨frame, order, false⟩ = some state'.book)) := by
  obtain ⟨recvTs, eventType, tokenId, payload⟩ := frame
  have hid : ∀ {ids : List String},
      (do return (← assetKey tokenId).toList : Except PyExc (List String)) = .ok ids →
      (token ∈ ids ↔ tokenId = .str token) := by
    intro ids hids
    obtain ⟨key, hkey, hids⟩ := bind_eq_ok.mp hids
    obtain rfl : key.toList = ids := Except.ok.inj hids
    constructor
    · intro hmem
      obtain rfl : key = some token := by simpa using hmem
      exact BookStateMaintainer.assetKey_eq_some hkey
    · rintro rfl
      obtain rfl : some token = key := by simpa [assetKey] using hkey
      simp
  cases eventType with
  | gap => exact absurd rfl hgap
  | book =>
    obtain ⟨hother, hown⟩ := BookStateMaintainer.applyBook_ok h token
    refine ⟨?_, ?_⟩
    · intro hnot
      have hne : tokenId ≠ .str token := fun heq => hnot ((hid hids).mpr heq)
      refine ⟨hother hne, fun book => ?_⟩
      cases tokenId with
      | str asset =>
        have hasset : asset ≠ token := fun heq => hne (by rw [heq])
        simp [standingAfter, hasset]
      | _ => simp [standingAfter]
    · intro hmem state' hstate' _
      obtain rfl := (hid hids).mp hmem
      obtain ⟨state, hstate, hbook⟩ := hown rfl
      obtain rfl : state = state' := Option.some.inj (hstate.symm.trans hstate')
      exact .inl ⟨rfl, fun book => by simp [standingAfter, hbook]⟩
  | tickSizeChange =>
    rcases htick : maintainer.applyTickSize ⟨recvTs, .tickSizeChange, tokenId, payload⟩ with
      ⟨e | u, last⟩
    · simp [BookStateMaintainer.applyFrame, htick, Except.map] at h
    · simp only [BookStateMaintainer.applyFrame, htick, Except.map, Prod.mk.injEq] at h
      obtain rfl := h.2
      obtain ⟨hother, hown⟩ := BookStateMaintainer.applyTickSize_ok htick token
      refine ⟨?_, ?_⟩
      · intro hnot
        have hne : tokenId ≠ .str token := fun heq => hnot ((hid hids).mpr heq)
        exact ⟨hother hne, fun book => by simp [standingAfter]⟩
      · intro _ state' hstate' hseeded'
        obtain ⟨state, hstate, hseeded, hbook⟩ := hown state' hstate' hseeded'
        exact .inr ⟨by simp, state, hstate, hseeded, by simp [standingAfter, hbook]⟩
  | priceChange =>
    simp only [BookStateMaintainer.applyFrame, BookStateMaintainer.applyPriceChange] at h
    cases hts : coerceMs (field payload "timestamp") with
    | error e => simp [hts] at h
    | ok ts => cases hchanges : changesByAsset payload with
      | error e => simp [hts, hchanges] at h
      | ok byAsset =>
        simp only [hts, hchanges] at h
        obtain ⟨hnodup, hkeys⟩ := changesByAsset_ok hchanges hids
        obtain ⟨hother, hown⟩ := BookStateMaintainer.mergeAssets_ok h hnodup token
        refine ⟨?_, ?_⟩
        · intro hnot
          rw [← hkeys] at hnot
          refine ⟨hother hnot, fun book => ?_⟩
          have hdelta : deltaFor token payload = none := by
            simp [deltaFor, hchanges, lookup_eq_none_of_notMem hnot]
          simp [standingAfter, hdelta]
        · intro hmem state' hstate' hseeded'
          rw [← hkeys] at hmem
          obtain ⟨changes, hlookup⟩ := lookup_eq_some_of_mem hmem
          obtain ⟨state, hstate, hseeded, hmerge⟩ := hown changes hlookup state' hstate' hseeded'
          have hdelta : deltaFor token payload = some changes := by
            simp [deltaFor, hchanges, hlookup]
          refine .inr ⟨by simp, state, hstate, hseeded, ?_⟩
          simp [standingAfter, hdelta, hts, hmerge, Except.toOption]

namespace WsBookDepthSource

/-- The walk over the tokens of a processed frame reads the books and writes the walked entries. -/
theorem refresh_ok {recvTs : ℤ} {order : List String} : ∀ {source source' : WsBookDepthSource},
    source.refresh recvTs order = (.ok (), source') →
      source'.maintainer = source.maintainer ∧ ∀ token,
        (token ∉ order → source'.entries token = source.entries token) ∧
        (token ∈ order → ∀ entry, source'.entries token = some entry → entry.gapped = false →
          ∃ snap, source.maintainer.latestSnapshot token = .ok (some snap) ∧
            entry.snapshot = some snap) := by
  induction order with
  | nil =>
    intro source source' h
    simp only [refresh, Prod.mk.injEq, true_and] at h
    subst h
    simp
  | cons walked order ih =>
    intro source source' h
    -- one entry is written, and the maintainer stays
    have hpart : ∃ written : Option CacheEntry,
        refresh recvTs { source with entries := Function.update source.entries walked written }
          order = (.ok (), source') ∧
        ∀ entry, written = some entry → entry.gapped = false →
          ∃ snap, source.maintainer.latestSnapshot walked = .ok (some snap) ∧
            entry.snapshot = some snap := by
      rw [refresh] at h
      rcases hsnap : source.maintainer.latestSnapshot walked with e | _ | snap
      · simp [hsnap] at h
      · simp only [hsnap] at h
        refine ⟨_, h, ?_⟩
        rintro entry hentry hlive
        obtain ⟨before, -, rfl⟩ := Option.map_eq_some_iff.mp hentry
        simp [CacheEntry.gap] at hlive
      · simp only [hsnap] at h
        refine ⟨_, h, ?_⟩
        intro entry hentry _
        obtain rfl := Option.some.inj hentry
        exact ⟨snap, rfl, rfl⟩
    obtain ⟨written, hrest, hwritten⟩ := hpart
    obtain ⟨hmaintainer, hentries⟩ := ih hrest
    refine ⟨hmaintainer, fun token => ⟨?_, ?_⟩⟩
    · intro hnot
      rw [List.mem_cons, not_or] at hnot
      rw [(hentries token).1 hnot.2]
      exact Function.update_of_ne hnot.1 _ _
    · intro hmem entry hentry hlive
      by_cases hin : token ∈ order
      · exact (hentries token).2 hin entry hentry hlive
      · obtain rfl : token = walked := by simpa [hin] using hmem
        rw [(hentries token).1 hin] at hentry
        exact hwritten entry (by simpa using hentry) hlive

end WsBookDepthSource

/-! ## Runs -/

/-- The token's cache entry is not gapped. -/
def Live (source : WsBookDepthSource) (token : String) : Prop :=
  ∃ entry, source.entries token = some entry ∧ entry.gapped = false

/-- Every token whose seeded book a delta reaches has a live cache entry. -/
def ReachesLive (source : WsBookDepthSource) (frame : VenueBookFrame) : Prop :=
  (frame.eventType = .priceChange ∨ frame.eventType = .tickSizeChange) →
    ∀ ids, frameTokenIds frame = .ok ids → ∀ token ∈ ids, ∀ state,
      source.maintainer.books token = some state → state.seeded = true → Live source token

/-- A live entry shows the book its token's deliveries vouch for. -/
def Vouched (textOf : Value → String) (deliveries : List Delivery) (source : WsBookDepthSource) :
    Prop :=
  ∀ token entry, source.entries token = some entry → entry.gapped = false →
    ∃ state snap, source.maintainer.books token = some state ∧ state.seeded = true ∧
      state.toSnapshot = .ok snap ∧ entry.snapshot = some snap ∧
      standing textOf token deliveries = some state.book

theorem not_live_gapAll {source : WsBookDepthSource} {token : String} {entry : CacheEntry}
    (h : source.gapAll.entries token = some entry) : entry.gapped = true := by
  obtain ⟨before, -, rfl⟩ := Option.map_eq_some_iff.mp h
  rfl

theorem latestSnapshot_eq_some {maintainer : BookStateMaintainer} {token : String}
    {snap : BookSnapshot} (h : maintainer.latestSnapshot token = .ok (some snap)) :
    ∃ state, maintainer.books token = some state ∧ state.seeded = true ∧
      state.toSnapshot = .ok snap := by
  unfold BookStateMaintainer.latestSnapshot at h
  cases hbook : maintainer.books token with
  | none => simp [hbook] at h
  | some state =>
    simp only [hbook] at h
    split_ifs at h with hseeded
    · cases hsnap : state.toSnapshot with
      | error e => simp [hsnap] at h
      | ok got =>
        obtain rfl : got = snap := by simpa [hsnap] using h
        exact ⟨state, rfl, hseeded, hsnap⟩
    · simp at h

theorem standing_concat (token : String) (deliveries : List Delivery) (delivery : Delivery) :
    standing textOf token (deliveries ++ [delivery]) =
      standingAfter textOf token (standing textOf token deliveries) delivery := by
  simp [standing]

/-- What `_on_frame` keeps: a delta that reaches no seeded book under a gapped entry leaves every
live entry with a book that is vouched for. -/
theorem Vouched.step {deliveries : List Delivery} {source source' : WsBookDepthSource}
    {delivery : Delivery} (hv : Vouched textOf deliveries source)
    (hstep : step textOf source delivery source') (hlive : ReachesLive source delivery.frame) :
    Vouched textOf (deliveries ++ [delivery]) source' := by
  obtain ⟨frame, order, raised⟩ := delivery
  obtain ⟨hwalk, hraised, hafter⟩ := hstep
  intro token entry hentry hgapped
  simp only [WsBookDepthSource.onFrame] at hraised hafter
  rcases hprocess : source.processFrame textOf frame order with ⟨e | u, processed⟩
  · -- a raise gaps every entry
    simp only [hprocess] at hafter
    rw [hafter] at hentry
    simp [not_live_gapAll hentry] at hgapped
  simp only [hprocess] at hafter hraised
  obtain rfl : raised = false := by simpa [Except.isOk, Except.toBool] using hraised
  subst hafter
  rw [standing_concat]
  unfold WsBookDepthSource.processFrame at hprocess
  rcases happly : source.maintainer.applyFrame textOf frame with ⟨e | emitted, maintainer⟩
  · simp [happly] at hprocess
  simp only [happly] at hprocess
  split_ifs at hprocess with hgap
  · obtain rfl := (Prod.mk.inj hprocess).2
    simp [not_live_gapAll hentry] at hgapped
  cases hids : frameTokenIds frame with
  | error e => simp [hids] at hprocess
  | ok ids =>
    simp only [hids] at hprocess
    obtain ⟨hmaintainer, hentries⟩ := WsBookDepthSource.refresh_ok hprocess
    obtain ⟨hother, hown⟩ := applyFrame_ok happly hgap hids token order
    obtain ⟨-, hmem⟩ := hwalk ids hids
    by_cases htoken : token ∈ ids
    · -- the entry was written from the maintainer's book
      obtain ⟨snap, hsnap, hshown⟩ :=
        (hentries token).2 ((hmem token).mpr htoken) entry hentry hgapped
      obtain ⟨state, hstate, hseeded, hrender⟩ := latestSnapshot_eq_some hsnap
      refine ⟨state, snap, by rw [hmaintainer]; exact hstate, hseeded, hrender, hshown, ?_⟩
      rcases hown htoken state hstate hseeded with ⟨-, hbook⟩ | ⟨hbook, before, hbefore, hb, hmerge⟩
      · exact hbook _
      · have hkind : frame.eventType = .priceChange ∨ frame.eventType = .tickSizeChange := by
          cases hevent : frame.eventType <;> simp_all
        obtain ⟨old, hold, holdLive⟩ := hlive hkind ids hids token htoken before hbefore hb
        obtain ⟨state', -, hstate', -, -, -, hstanding⟩ := hv token old hold holdLive
        obtain rfl : before = state' := Option.some.inj (hbefore.symm.trans hstate')
        rw [hstanding]
        exact hmerge
    · -- a token the frame does not name
      rw [(hentries token).1 fun h => htoken ((hmem token).mp h)] at hentry
      obtain ⟨state, snap, hstate, hseeded, hrender, hshown, hstanding⟩ :=
        hv token entry hentry hgapped
      obtain ⟨hkeep, hsame⟩ := hother htoken
      refine ⟨state, snap, ?_, hseeded, hrender, hshown, ?_⟩
      · rw [hmaintainer]
        exact hkeep.trans hstate
      · rw [hsame, hstanding]

/-! ## What is served -/

theorem levelsOf_eq_ok {ladder : Ladder} {levels : List BookLevel}
    (h : levelsOf ladder = .ok levels) : levels.map BookLevel.pair = shown ladder := by
  have hall := mapM_eq_ok.mp h
  clear h
  generalize shown ladder = rows at hall
  induction hall with
  | nil => rfl
  | cons hmake _ ih => rw [List.map_cons, ih, BookLevel.make_eq_ok hmake]

/-- A rendered book shows what the state retains. -/
theorem shows_of_toSnapshot {state : BookState} {snap : BookSnapshot}
    (h : state.toSnapshot = .ok snap) : Shows snap state.book := by
  unfold BookState.toSnapshot at h
  obtain ⟨bids, hbids, h⟩ := bind_eq_ok.mp h
  obtain ⟨asks, hasks, h⟩ := bind_eq_ok.mp h
  obtain ⟨hsnapBids, hsnapAsks⟩ := BookSnapshot.make_eq_ok h
  refine ⟨?_, ?_⟩
  · have hlevels : bids.map BookLevel.pair = shown state.book.bids := levelsOf_eq_ok hbids
    rw [hsnapBids, ← hlevels]
    exact (List.perm_insertionSort _ bids).map _
  · have hlevels : asks.map BookLevel.pair = shown state.book.asks := levelsOf_eq_ok hasks
    rw [hsnapAsks, ← hlevels]
    exact (List.perm_insertionSort _ asks).map _

theorem fetchBook_eq_some {source : WsBookDepthSource} {token : String} {now : ℤ}
    {snap : BookSnapshot} (h : source.fetchBook token now = .ok (some snap)) :
    ∃ entry, source.entries token = some entry ∧ entry.gapped = false ∧
      entry.snapshot = some snap := by
  unfold WsBookDepthSource.fetchBook at h
  cases hentry : source.entries token with
  | none => simp [hentry] at h
  | some entry =>
    cases hsnap : entry.snapshot with
    | none => simp [hentry, hsnap] at h
    | some snapshot =>
      simp only [hentry, hsnap] at h
      split_ifs at h with hgapped hage
      · obtain rfl : snapshot = snap := by simpa using h
        exact ⟨entry, rfl, by simpa using hgapped, hsnap⟩

/-- **What is served is vouched for**: in every run whose deltas reach no seeded book under a gapped
cache entry, a fetched snapshot shows the book frame last applied since its token was gapped, with
every later delta of the token merged and checked. -/
theorem fetched_book_stands {resolutions : String → Option TokenResolution} {maxCacheAgeMs : ℤ}
    {deliveries : List Delivery} {source : WsBookDepthSource}
    (hrun : Run (fun source delivery source' =>
        step textOf source delivery source' ∧ ReachesLive source delivery.frame)
      (WsBookDepthSource.start resolutions maxCacheAgeMs) deliveries source)
    {token : String} {now : ℤ} {snap : BookSnapshot}
    (hfetch : source.fetchBook token now = .ok (some snap)) :
    ∃ book, standing textOf token deliveries = some book ∧ Shows snap book := by
  have hv : Vouched textOf deliveries source := by
    refine hrun.invariant (Vouched textOf) ?_ fun ds delivery s s' ih hstep => ih.step hstep.1 hstep.2
    intro token entry hentry
    simp [WsBookDepthSource.start] at hentry
  obtain ⟨entry, hentry, hgapped, hsnap⟩ := fetchBook_eq_some hfetch
  obtain ⟨state, shownSnap, -, -, hrender, hshown, hstanding⟩ := hv token entry hentry hgapped
  obtain rfl : shownSnap = snap := Option.some.inj (hshown.symm.trans hsnap)
  exact ⟨state.book, hstanding, shows_of_toSnapshot hrender⟩

section Witness

/-- A full book of the token. -/
def seedFrame : VenueBookFrame :=
  ⟨1, .book, .str "t", [("timestamp", .int 1),
    ("bids", .list [.dict [("price", .float (.fin (2 / 5))), ("size", .int 10)]]),
    ("asks", .list [.dict [("price", .float (.fin (3 / 5))), ("size", .int 10)]])]⟩

/-- A delta that adds a bid and states no number as the best one: it raises after the merge. -/
def raisingDelta : VenueBookFrame :=
  ⟨2, .priceChange, .none, [("timestamp", .int 2), ("price_changes", .list [.dict
    [("asset_id", .str "t"), ("side", .str "BUY"), ("price", .float (.fin (1 / 2))),
      ("size", .int 5), ("best_bid", .str "?"), ("best_ask", .float (.fin (3 / 5)))]])]⟩

/-- A change of the tick. -/
def tickFrame : VenueBookFrame := ⟨3, .tickSizeChange, .str "t", []⟩

/-- A source that resolves no token, after some frames of the token `t`. -/
def after (frames : List VenueBookFrame) : WsBookDepthSource :=
  frames.foldl (fun source frame => source.onFrame (fun _ => "") frame ["t"])
    (WsBookDepthSource.start (fun _ => none) 1000)

theorem isWalk_of_ids {frame : VenueBookFrame} (h : frameTokenIds frame = .ok ["t"]) :
    IsWalk frame ["t"] := by
  intro ids hids
  obtain rfl : ["t"] = ids := Except.ok.inj (h.symm.trans hids)
  simp

theorem fetched_book_stands_seeded : ∃ snap,
    (after [seedFrame]).fetchBook "t" 1 = .ok (some snap) ∧
      ∃ book, standing (fun _ => "") "t" [⟨seedFrame, ["t"], false⟩] = some book ∧
        Shows snap book := by
  have hrun : Run (fun source delivery source' =>
      step (fun _ => "") source delivery source' ∧ ReachesLive source delivery.frame)
      (WsBookDepthSource.start (fun _ => none) 1000) [⟨seedFrame, ["t"], false⟩]
      (after [seedFrame]) :=
    Run.single ⟨⟨isWalk_of_ids rfl, by decide +kernel, rfl⟩, by simp [ReachesLive, seedFrame]⟩
  have hserved : ((after [seedFrame]).fetchBook "t" 1).toOption.join.isSome = true := by
    decide +kernel
  rcases hfetch : (after [seedFrame]).fetchBook "t" 1 with e | _ | snap
  · simp [hfetch, Except.toOption] at hserved
  · simp [hfetch, Except.toOption] at hserved
  · exact ⟨snap, rfl, fetched_book_stands hrun hfetch⟩

/-- A tick change shows again the book that a raise left half checked: no book frame has been
applied since. -/
theorem unchecked_book_served :
    ¬ ∀ (textOf : Value → String) (resolutions : String → Option TokenResolution)
      (maxCacheAgeMs : ℤ) (deliveries : List Delivery) (source : WsBookDepthSource)
      (token : String) (now : ℤ) (snap : BookSnapshot),
      Run (step textOf) (WsBookDepthSource.start resolutions maxCacheAgeMs) deliveries source →
      source.fetchBook token now = .ok (some snap) →
        ∃ book, standing textOf token deliveries = some book ∧ Shows snap book := by
  intro hclaim
  have hrun : Run (step fun _ => "") (WsBookDepthSource.start (fun _ => none) 1000)
      [⟨seedFrame, ["t"], false⟩, ⟨raisingDelta, ["t"], true⟩, ⟨tickFrame, ["t"], false⟩]
      (after [seedFrame, raisingDelta, tickFrame]) :=
    .cons ⟨isWalk_of_ids rfl, by decide +kernel, rfl⟩
      (.cons ⟨isWalk_of_ids rfl, by decide +kernel, rfl⟩
        (.single ⟨isWalk_of_ids rfl, by decide +kernel, rfl⟩))
  have hserved : ((after [seedFrame, raisingDelta, tickFrame]).fetchBook "t" 3).toOption.join.isSome
      = true := by
    decide +kernel
  have hnone : standing (fun _ => "") "t"
      [⟨seedFrame, ["t"], false⟩, ⟨raisingDelta, ["t"], true⟩, ⟨tickFrame, ["t"], false⟩] = none :=
    rfl
  rcases hfetch : (after [seedFrame, raisingDelta, tickFrame]).fetchBook "t" 3 with e | _ | snap
  · simp [hfetch, Except.toOption] at hserved
  · simp [hfetch, Except.toOption] at hserved
  · obtain ⟨book, hbook, -⟩ := hclaim _ _ _ _ _ _ _ snap hrun hfetch
    simp [hnone] at hbook

end Witness

end Veridex.WsBook
