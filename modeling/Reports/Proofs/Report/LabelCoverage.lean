import Reports.Proofs.Field.Prefetch
import Reports.Proofs.Report.Display

/-! Which labels a page reads, and which were loaded for it. Labels are loaded for the ids in the
raw cells of the shown columns. An attribute reads them for the ids in the value that the attributes
before it hand on, and those may be others. -/
namespace Reports

namespace Field

open Lookup (Lacks keyOf)

/-- A call for labels that was answered. -/
structure Inquiry where
  lookup : Lookup
  ids : List String
  statement : Sql.Statement
  found : List Row

namespace Inquiry

def exchange (q : Inquiry) : Exchange := ⟨q.statement, .ok q.found⟩

/-- There are rows only for ids that were asked for. -/
def Honest (q : Inquiry) : Prop := ∀ row ∈ q.found, ∀ id, keyOf row = some id → id ∈ q.ids

end Inquiry

/-- Labels loaded for lookups with ids, from left to right. -/
inductive Loading (d : Sql.Dialect) : Labels → List (Lookup × List String) → List Inquiry →
    Labels → Prop
  | nil {ls : Labels} : Loading d ls [] [] ls
  | known {ls ls' : Labels} {l : Lookup} {ids : List String} {ps : List (Lookup × List String)}
    {qs : List Inquiry} : ls.missing l ids = [] → Loading d ls ps qs ls' →
    Loading d ls ((l, ids) :: ps) qs ls'
  | asked {ls ls' : Labels} {q : Inquiry} {b : Sql.Bound} {ids : List String}
    {ps : List (Lookup × List String)} {qs : List Inquiry} : q.ids = ls.missing q.lookup ids →
      q.lookup.Asks d q.ids q.statement b → Loading d (ls.learn q.lookup q.found) ps qs ls' →
        Loading d ls ((q.lookup, ids) :: ps) (q :: qs) ls'

namespace Loading

variable {d : Sql.Dialect} {ls ls' ls'' : Labels} {ps ps' : List (Lookup × List String)}
  {qs qs' : List Inquiry} {l : Lookup} {id : String}

theorem append (first : Loading d ls ps qs ls') (second : Loading d ls' ps' qs' ls'') :
    Loading d ls (ps ++ ps') (qs ++ qs') ls'' := by
  induction first with
  | nil => exact second
  | known all _ ih => exact .known all (ih second)
  | asked ids asks _ ih => exact .asked ids asks (ih second)

theorem asks (loading : Loading d ls ps qs ls') :
    ∀ q ∈ qs, ∃ b, q.lookup.Asks d q.ids q.statement b := by
  induction loading with
  | nil => exact fun _ mem => absurd mem List.not_mem_nil
  | known _ _ ih => exact ih
  | asked _ asks _ ih => exact List.forall_mem_cons.mpr ⟨⟨_, asks⟩, ih⟩

theorem passed (loading : Loading d ls ps qs ls') :
    ∀ q ∈ qs, ∀ id ∈ q.ids, ∃ p ∈ ps, p.1 = q.lookup ∧ id ∈ p.2 := by
  induction loading with
  | nil => exact fun _ mem => absurd mem List.not_mem_nil
  | known _ _ ih =>
    intro q mem id inside
    obtain ⟨p, later, passed⟩ := ih q mem id inside
    exact ⟨p, List.mem_cons_of_mem _ later, passed⟩
  | asked ids _ _ ih =>
    intro q mem id inside
    rcases List.mem_cons.mp mem with rfl | later
    · rw [ids, Labels.mem_missing] at inside
      exact ⟨_, List.mem_cons_self, rfl, inside.1⟩
    · obtain ⟨p, later, passed⟩ := ih q later id inside
      exact ⟨p, List.mem_cons_of_mem _ later, passed⟩

theorem grows (loading : Loading d ls ps qs ls') (cached : (ls.get? l id).isSome = true) :
    (ls'.get? l id).isSome = true := by
  induction loading with
  | nil => exact cached
  | known _ _ ih => exact ih cached
  | asked _ _ _ ih => exact ih (Labels.isSome_get?_learn _ _ cached)

/-- An id that was passed on has a label in the end, or was asked for and has no row. -/
theorem covers (loading : Loading d ls ps qs ls') {p : Lookup × List String} (mem : p ∈ ps)
    (same : p.1.key = l.key) (inside : id ∈ p.2) :
    (ls'.get? l id).isSome = true ∨ ∃ q ∈ qs, q.lookup.key = l.key ∧ id ∈ q.ids ∧
    Lacks q.found id := by
  induction loading with
  | nil => cases mem
  | @known ls ls' l' ids ps qs all rest ih =>
    rcases List.mem_cons.mp mem with rfl | later
    -- Nothing was missing when the id was passed on.
    · have cached : ls.get? l id ≠ none := fun none => by
        have lacking :=
          Labels.mem_missing.mpr ⟨inside, (Labels.get?_congr same ls id).trans none⟩
        rw [all] at lacking
        cases lacking
      exact .inl (rest.grows (Option.isSome_iff_ne_none.mpr cached))
    · exact ih later
  | @asked ls ls' q b ids ps qs wanted asks rest ih =>
    rcases List.mem_cons.mp mem with rfl | later
    · by_cases cached : ls.get? l id = none
      · have lacking :=
          Labels.mem_missing.mpr ⟨inside, (Labels.get?_congr same ls id).trans cached⟩
        rcases Lookup.lacks_or_lastFor q.found id with lacks | ⟨row, last⟩
        · exact .inr ⟨q, List.mem_cons_self, same, wanted ▸ lacking, lacks⟩
        · exact .inl (rest.grows (by rw [Labels.get?_learn_of_lastFor same.symm last]; rfl))
      · exact .inl
          (rest.grows (Labels.isSome_get?_learn _ _ (Option.isSome_iff_ne_none.mpr cached)))
    · rcases ih later with labelled | ⟨q', mem', missed⟩
      · exact .inl labelled
      · exact .inr ⟨q', List.mem_cons_of_mem _ mem', missed⟩

/-- A label in the end was there before, or came in a row for its id. -/
theorem labelled (loading : Loading d ls ps qs ls') (some : (ls'.get? l id).isSome = true) :
    (ls.get? l id).isSome = true ∨ ∃ q ∈ qs, q.lookup.key = l.key ∧ ¬Lacks q.found id := by
  induction loading with
  | nil => exact .inl some
  | known _ _ ih => exact ih some
  | @asked ls ls' q b ids ps qs wanted asks rest ih =>
    rcases ih some with before | ⟨q', mem, found⟩
    · by_cases here : l.key = q.lookup.key ∧ ¬Lacks q.found id
      · exact .inr ⟨q, List.mem_cons_self, here.1.symm, here.2⟩
      · by_cases same : l.key = q.lookup.key
        · have lacks := not_not.mp fun found => here ⟨same, found⟩
          rw [Labels.get?_learn_of_lacks lacks] at before
          exact .inl before
        · rw [Labels.get?_learn_of_ne same] at before
          exact .inl before
    · exact .inr ⟨q', List.mem_cons_of_mem _ mem, found⟩

end Loading

theorem loading_prefetch {ls ls' : Labels} {st : Storage} {l : Lookup} {ids : List String}
    {s s' : Session} (loaded : ls.prefetch st l ids s = (.ok ls', s')) :
    ∃ qs : List Inquiry, s.Converses st (qs.map Inquiry.exchange) s' ∧
    Loading st.dialect ls [(l, ids)] qs ls' := by
  have outcome := Labels.prefetched ls st l ids s
  rw [loaded] at outcome
  cases outcome with
  | known all => exact ⟨[], .of_silent (.refl s'), .known all .nil⟩
  | @answered x b found _ some asks answer calls served =>
    let q : Inquiry := { lookup := l, ids := ls.missing l ids, statement := x, found }
    have reply : st.reply s.served x = .ok found := by simp only [Storage.reply, asks.bound, answer]
    have call : st.call x = ⟨x, b⟩ := by rw [Storage.call, asks.bound]; rfl
    have next : st.next s.served x = s.served + 1 := by rw [Storage.next, asks.bound]
    refine ⟨[q], ⟨?_, ?_, reply.symm, trivial⟩, .asked (q := q) rfl asks .nil⟩
    · rw [calls, ← call]
      rfl
    · rw [served, ← next]
      rfl

theorem Attribute.lookup?_eq_some_iff {a : Attribute} {l : Lookup} :
    a.lookup? = some l ↔ ∃ separator, a = .linkedData l separator := by
  cases a <;> simp [lookup?]

end Field

namespace Request

open Reports.Field (Lookup Labels Loading Inquiry)
open Reports.Field.Lookup (Lacks)

/-- The lookups of a page in the order in which labels are loaded for them, with the ids that are
passed on. -/
def passes (r : Request) (raws : List Row) : List (Lookup × List String) :=
  r.lookups.map fun p => (p.2, idsOfRows p.1 raws)

def loadAll : List (Lookup × List String) → RequestAction Unit
  | [] => return ()
  | p :: rest => do
    loadLabels p.1 p.2
    loadAll rest

theorem loadAll_append (ps qs : List (Lookup × List String)) :
    loadAll (ps ++ qs) = loadAll ps >>= fun _ => loadAll qs := by
  induction ps with
  | nil => exact (pure_bind () fun _ => loadAll qs).symm
  | cons p rest ih => rw [List.cons_append, loadAll, loadAll, ih, bind_assoc]

theorem prefetchAttributes_eq (name : String) (rows : List Row) (as : List Field.Attribute) :
    prefetchAttributes name rows as =
      loadAll ((linked name as).map fun p => (p.2, idsOfRows p.1 rows)) := by
  induction as with
  | nil => rfl
  | cons a rest ih =>
    rw [prefetchAttributes, ih]
    cases lookup : a.lookup? with
    | none =>
      have skip : linked name (a :: rest) = linked name rest :=
        List.filterMap_cons_none (by rw [lookup]; rfl)
      rw [skip, prefetchAttribute, lookup]
      exact pure_bind () _
    | some l =>
      have first : linked name (a :: rest) = (name, l) :: linked name rest :=
        List.filterMap_cons_some (by rw [lookup]; rfl)
      rw [first, prefetchAttribute_of_some lookup]
      rfl

theorem prefetchLabels_eq (rows : List Row) (fs : List Field) : prefetchLabels rows fs =
    loadAll ((fs.flatMap fun f => linked f.name f.attributes).map fun p =>
      (p.2, idsOfRows p.1 rows)) := by
  induction fs with
  | nil => rfl
  | cons f rest ih =>
    rw [prefetchLabels, ih, prefetchAttributes_eq, List.flatMap_cons, List.map_append,
      loadAll_append]

theorem loading_loadAll {ps : List (Lookup × List String)} {r r' : Request} {s s' : Session}
    (loaded : loadAll ps r s = ((.ok (), r'), s')) :
    ∃ qs : List Inquiry, s.Converses r.storage (qs.map Inquiry.exchange) s' ∧
      Loading r.dialect r.labels ps qs r'.labels := by
  induction ps generalizing r s with
  | nil =>
    cases loaded
    exact ⟨[], .of_silent (.refl s'), .nil⟩
  | cons p rest ih =>
    rw [loadAll] at loaded
    rcases here : r.labels.prefetch r.storage p.1 p.2 s with ⟨e | labels, s₁⟩
    · rw [bind_error _ (loadLabels_of_error here)] at loaded
      cases loaded
    · rw [bind_ok _ (loadLabels_of_ok here)] at loaded
      obtain ⟨qs, first, loading⟩ := Field.loading_prefetch here
      obtain ⟨qs', later, loading'⟩ := ih loaded
      refine ⟨qs ++ qs', ?_, loading.append loading'⟩
      rw [List.map_append]
      exact first.trans later

/-- Next to a raw row, an attribute of a shown field reads the label of an id in the value that the
attributes before it hand on. -/
def ReadsLabel (r : Request) (labels : Labels) (raw : Row) (f : Field) (l : Lookup) (id : String) :
    Prop :=
  f ∈ r.displayFields ∧ ∃ before separator after v,
    f.attributes = before ++ .linkedData l separator :: after ∧
      carried { labels, clock := r.clock } raw before (rawCell raw f.name) = some v ∧
      id ∈ Field.idsOf v

/-- A label that was there before, or an id that was passed on for the lookup. -/
def Covered (r : Request) (raws : List Row) (l : Lookup) (id : String) : Prop :=
  r.labels.contains l id = true ∨ ∃ p ∈ r.passes raws, p.1.key = l.key ∧ id ∈ p.2

theorem mem_idsOfRows {name : String} {raws : List Row} {id : String} :
    id ∈ idsOfRows name raws ↔ ∃ raw ∈ raws, id ∈ Field.idsOf (rawCell raw name) := by
  have ids (raw : Row) : ((raw.get? name).map Field.idsOf).getD [] =
      Field.idsOf (rawCell raw name) := by
    rw [rawCell]
    cases raw.get? name <;> rfl
  simp [idsOfRows, ids]

theorem mem_lookups {r : Request} {name : String} {l : Lookup} : (name, l) ∈ r.lookups ↔
    ∃ f ∈ r.displayFields, f.name = name ∧
    ∃ separator, .linkedData l separator ∈ f.attributes := by
  constructor
  · intro mem
    obtain ⟨f, shown, mem⟩ := List.mem_flatMap.mp mem
    obtain ⟨a, inside, found⟩ := List.mem_filterMap.mp mem
    obtain ⟨l', lookup, same⟩ := Option.map_eq_some_iff.mp found
    cases same
    obtain ⟨separator, rfl⟩ := Field.Attribute.lookup?_eq_some_iff.mp lookup
    exact ⟨f, shown, rfl, separator, inside⟩
  · rintro ⟨f, shown, rfl, separator, inside⟩
    exact List.mem_flatMap.mpr ⟨f, shown, List.mem_filterMap.mpr ⟨_, inside, rfl⟩⟩

/-- What is covered besides labels that were there before: the ids in raw cells of shown columns
that have an attribute with the lookup. -/
theorem covered_iff {r : Request} {raws : List Row} {l : Lookup} {id : String} :
    r.Covered raws l id ↔ r.labels.contains l id = true ∨
      ∃ f ∈ r.displayFields, ∃ l' separator, .linkedData l' separator ∈ f.attributes ∧
        l'.key = l.key ∧ ∃ raw ∈ raws, id ∈ Field.idsOf (rawCell raw f.name) := by
  refine or_congr_right ⟨?_, ?_⟩
  · rintro ⟨_, mem, same, inside⟩
    obtain ⟨⟨name, l'⟩, linked, rfl⟩ := List.mem_map.mp mem
    obtain ⟨f, shown, rfl, separator, stands⟩ := mem_lookups.mp linked
    exact ⟨f, shown, l', separator, stands, same, mem_idsOfRows.mp inside⟩
  · rintro ⟨f, shown, l', separator, stands, same, inside⟩
    exact ⟨_, List.mem_map_of_mem (mem_lookups.mpr ⟨f, shown, rfl, separator, stands⟩), same,
      mem_idsOfRows.mpr inside⟩

section Loaded

variable {r : Request} {raws : List Row} {qs : List Inquiry} {labels : Labels}
  {l : Lookup} {id : String}
  (loading : Loading r.dialect r.labels (r.passes raws) qs labels)

include loading

theorem covered_of_asked {q : Inquiry} (mem : q ∈ qs) (same : q.lookup.key = l.key)
    (inside : id ∈ q.ids) :
    r.Covered raws l id := by
  obtain ⟨p, pass, lookup, passed⟩ := loading.passed q mem id inside
  exact .inr ⟨p, pass, lookup ▸ same, passed⟩

theorem missed_of_covered (covered : r.Covered raws l id) (none : labels.get? l id = none) :
    ∃ q ∈ qs, q.lookup.key = l.key ∧ id ∈ q.ids ∧ Lacks q.found id := by
  have missing : ¬(labels.get? l id).isSome = true := by simp [none]
  rcases covered with cached | ⟨p, mem, same, inside⟩
  · exact absurd (loading.grows cached) missing
  · exact (loading.covers mem same inside).resolve_left missing

theorem covered_of_labelled (honest : ∀ q ∈ qs, q.Honest) (some : labels.get? l id ≠ none) :
    r.Covered raws l id := by
  rcases loading.labelled (Option.isSome_iff_ne_none.mpr some) with cached |
    ⟨q, mem, same, found⟩
  · exact .inl cached
  · obtain ⟨row, there, key⟩ : ∃ row ∈ q.found,
        Field.Lookup.keyOf row = Option.some id := by
      simpa [Lacks] using found
    exact covered_of_asked loading mem same (honest q mem row there id key)

end Loaded

/-- Of the labels that a page reads, those are covered whose ids stand in the raw cell of their own
field. A covered label that is not shown was asked for and has no row. A label that is not covered
is not asked for: unless rows come back for other ids than those asked for, it is not shown, also
where the table has it. -/
theorem getData_labels {r : Request} (configured : r.preferences.isSome = true) (s : Session)
    {result : Option RowSet} (done : (getData r s).1.1 = .ok result) :
    ∃ (raws : List Row) (r' : Request) (s' s'' : Session) (qs : List Inquiry)
      (page : Option PageInfo), r.Fetches s raws r' s' ∧
      prefetchLabels raws r.displayFields = loadAll (r.passes raws) ∧
      prefetchLabels raws r.displayFields r' s' = ((.ok (), (getData r s).1.2), s'') ∧
      s'.Converses r.storage (qs.map Inquiry.exchange) (getData r s).2 ∧
      (∀ q ∈ qs, ∃ b, q.lookup.Asks r.dialect q.ids q.statement b) ∧
      result = (raws.mapM (showRow { labels := (getData r s).1.2.labels, clock := r.clock }
        r.displayFields)).map (fun rows => { rows, page }) ∧
      ∀ raw ∈ raws, ∀ f l id, r.ReadsLabel (getData r s).1.2.labels raw f l id →
        (id ∈ Field.idsOf (rawCell raw f.name) → r.Covered raws l id) ∧
        (r.Covered raws l id → (getData r s).1.2.labels.get? l id = none →
          ∃ q ∈ qs, q.lookup.key = l.key ∧ id ∈ q.ids ∧ Lacks q.found id) ∧
        (¬r.Covered raws l id → (∀ q ∈ qs, q.lookup.key = l.key → id ∉ q.ids) ∧
          ((∀ q ∈ qs, q.Honest) → (getData r s).1.2.labels.get? l id = none)) := by
  obtain ⟨raws, r', s', s'', page, fetches, loaded, silent, rows⟩ := getData_ok configured done
  have passed : prefetchLabels raws r.displayFields = loadAll (r.passes raws) :=
    prefetchLabels_eq raws _
  obtain ⟨filters, query, counts, same⟩ : ∃ filters query counts,
      r' = { r with filters, query, counts } := by
    obtain ⟨_, _, _, asked, _⟩ := fetches
    exact request_of_dataStatement asked
  obtain ⟨qs, converses, loading⟩ := loading_loadAll (passed ▸ loaded)
  -- Up to here the request has the labels and the storage that it started with.
  have labels : r'.labels = r.labels := by rw [same]
  have storage : r'.storage = r.storage := by rw [same]
  have dialect : r'.dialect = r.dialect := congrArg Storage.dialect storage
  rw [labels, dialect] at loading
  rw [storage] at converses
  refine ⟨raws, r', s', s'', qs, page, fetches, passed, loaded, converses.after silent,
    loading.asks, rows, ?_⟩
  rintro raw mem f l id ⟨shown, before, separator, after, v, attributes, -, -⟩
  have linked : .linkedData l separator ∈ f.attributes := by simp [attributes]
  refine ⟨fun inside => ?_, missed_of_covered loading, fun uncovered =>
    ⟨fun q mem same inside => ?_, fun honest => ?_⟩⟩
  · exact covered_iff.mpr (.inr ⟨f, shown, l, separator, linked, rfl, raw, mem, inside⟩)
  · exact uncovered (covered_of_asked loading mem same inside)
  · by_contra some
    exact uncovered (covered_of_labelled loading honest some)

def groups : Lookup := { table := "groups", keyColumn := "id", labelColumn := "name" }

def pupil : Row := .ofList [("id", .ofInt 1), ("gid", .ofInt 7), ("peer_gid", .ofInt 8)]

/-- A page with the group of the pupil and that of the peer, which is computed from the row. The
storage knows both groups. -/
def pupils : Request where
  report := taken
  storage := { dialect := .sqlite, answer := fun _ b => .ok (if b.values.isEmpty then [pupil] else
    [("7", "Blue"), ("8", "Red")].filterMap fun e =>
      if (b.values.filterMap Json.cellText?).contains e.1 then
        some (.ofList [("k", .string e.1), ("label", .string e.2)]) else none) }
  preferences := some { layout := .timeline }
  fields := [(Field.new "id" (some "t.id") "ID").withAttribute .identifier,
    (Field.new "gid" (some "t.gid") "Group").withAttribute (.linkedData groups ", "),
    ((Field.new "peer" none "Peer").withAttribute
      (.custom "row_field" fun _ row => rawCell row "peer_gid")).withAttribute
        (.linkedData groups ", ")]
  filters := .new "pupils" { userId := 7 }
  query := some (taken.template.select "t.id" "id")

theorem displayFields_pupils : pupils.displayFields = pupils.fields := by
  cbv

theorem dataStatement_pupils : dataStatement pupils {} =
    ((.ok (none, ⟨"SELECT DISTINCT t.id AS id FROM t t", ∅⟩),
      { pupils with filters := { pupils.filters with initialized := true } }),
      { events := [.collectionReady "pupils" 0] }) := by
  cbv

theorem passes_pupils : pupils.passes [pupil] = [(groups, ["7"]), (groups, [])] := by
  rw [passes, lookups, displayFields_pupils]
  cbv

theorem fetches_pupils {raws : List Row} {r' : Request} {s' : Session}
    (fetches : pupils.Fetches {} raws r' s') : raws = [pupil] := by
  obtain ⟨page, x, s₁, asked, answered⟩ := fetches
  rw [dataStatement_pupils] at asked
  cases asked
  have rows : (pupils.storage.fetch ⟨"SELECT DISTINCT t.id AS id FROM t t", ∅⟩
      { events := [.collectionReady "pupils" 0] }).1 = .ok [pupil] := by
    cbv
  rw [answered] at rows
  exact Except.ok.inj rows

/-- The group of the peer is read but not covered. It is not asked for and not shown. -/
theorem getData_labels_pupils : ∃ (result : Option RowSet) (qs : List Inquiry) (s' : Session),
    (getData pupils {}).1.1 = .ok result ∧
    result.map (fun shown => shown.rows.map cellTexts) =
      some [[("id", "1"), ("gid", "\x22Blue\x22"), ("peer", "\x22\x22")]] ∧
    pupils.ReadsLabel (getData pupils {}).1.2.labels pupil pupils.fields[2] groups "8" ∧
    ¬pupils.Covered [pupil] groups "8" ∧
    s'.Converses pupils.storage (qs.map Inquiry.exchange) (getData pupils {}).2 ∧
    ∀ q ∈ qs, q.lookup.key = groups.key → "8" ∉ q.ids := by
  have texts : (getData pupils {}).1.1.toOption.join.map (fun shown => shown.rows.map cellTexts) =
      some [[("id", "1"), ("gid", "\x22Blue\x22"), ("peer", "\x22\x22")]] := by
    simp only [getData_eq (r := pupils) rfl, present, display, displayFields_pupils]
    decide +kernel
  rcases done : (getData pupils {}).1.1 with e | result
  · rw [done] at texts
    cases texts
  obtain ⟨raws, r', s', s'', qs, page, fetches, -, -, converses, -, -, covered⟩ :=
    getData_labels rfl {} done
  obtain rfl := fetches_pupils fetches
  have reads (labels : Labels) : pupils.ReadsLabel labels pupil pupils.fields[2] groups "8" := by
    refine ⟨?_, [_], ", ", [], .ofInt 8, rfl, ?_, ?_⟩
    · rw [displayFields_pupils]
      exact List.getElem_mem _
    · rfl
    · decide
  have uncovered : ¬pupils.Covered [pupil] groups "8" := by
    rw [Covered, passes_pupils]
    decide
  rw [done] at texts
  exact ⟨result, qs, s', rfl, texts, reads _, uncovered, converses,
    ((covered pupil List.mem_cons_self _ _ _ (reads _)).2.2 uncovered).1⟩

end Request

end Reports
