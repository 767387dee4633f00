import EntityQuery.Proofs.RelatedSets
import EntityQuery.Proofs.Transactions
import Mathlib.Data.List.Nodup
/-! Setting the related rows of a parent once more: the same rows are found, none of them leaves, and all of them
refer to the parent already. -/

namespace EntityQuery

namespace Store

variable {s : Store} {table : String} {fields : List Field} {assignments : List Assignment}

theorem reachedFlagged (before : List Row) (rows : List (Bool × Row)) {row : Row}
    (mem : row ∈ reached table fields assignments before rows) : (true, row) ∈ rows := by
  induction rows generalizing before with
  | nil => cases mem
  | cons flag rest ih =>
    obtain ⟨isFlagged, other⟩ := flag
    cases isFlagged with
    | false => exact List.mem_cons_of_mem _ (ih _ mem)
    | true =>
      rw [reached] at mem
      split at mem
      · obtain rfl := List.mem_singleton.mp mem
        exact List.mem_cons_self
      · rcases List.mem_cons.mp mem with rfl | later
        · exact List.mem_cons_self
        · exact List.mem_cons_of_mem _ (ih _ later)

/-- An update that says nothing new of any row that matches leaves everything as it is, even if it fails. -/
theorem updateNothing {q : Update} {stored : List Row} (there : Record.get? s.tables q.table = some stored)
    (nothing : ∀ row ∈ stored, (∃ truth, matchesRow s.tables q.table q.condition row = .ok truth) →
      isMatch s.tables q.table q.condition row → ∀ fields, s.fieldsOf q.table = .ok fields →
        assignedRow q.table fields q.assignments row = row) :
    (s.updateRows q).2.content = s.content := by
  refine Prod.ext (updateColumns s q) (updateSame.mpr ?_)
  intro fields rows flagging row mem
  obtain ⟨known, others, same, rfl, truths⟩ := flaggedOk flagging
  obtain rfl : others = stored := Option.some.inj (same.symm.trans there)
  obtain ⟨inside, inner, pair⟩ := List.mem_map.mp (reachedFlagged [] _ mem)
  obtain ⟨matched, rfl⟩ := Prod.mk.inj pair
  exact nothing inside inner (truths inside inner) matched fields known

theorem deleteNothing {q : Delete} {stored : List Row} (there : Record.get? s.tables q.table = some stored)
    (nothing : ∀ row ∈ stored, (∃ truth, matchesRow s.tables q.table q.condition row = .ok truth) →
      isMatch s.tables q.table q.condition row = false) :
    (s.deleteRows q).2.content = s.content := by
  refine Prod.ext (deleteColumns s q) (deleteSame.mpr ?_)
  intro fields rows flagging flag mem
  obtain ⟨-, others, same, rfl, truths⟩ := flaggedOk flagging
  obtain rfl : others = stored := Option.some.inj (same.symm.trans there)
  obtain ⟨row, inner, rfl⟩ := List.mem_map.mp mem
  exact nothing row inner (truths row inner)

end Store

namespace ManyRelation

variable {registry : Registry Fetcher} {m : ManyRelation registry} {h : Handle} {s t : Session Store}
  {rows : List Row} {keys again : List Value} {selectors : List (Selector m.target)} {key : Value}

theorem placedMem (key : Value) {row : Row} (mem : row ∈ rows) (selected : m.selects selectors row) :
    Record.put row m.foreign.column key ∈ rows.filterMap (m.placed key selectors) :=
  List.mem_filterMap.mpr ⟨row, mem, placedSelected selected⟩

/-- The row that a selector finds afterwards is what has become of the one that it found before, if that one was not
found through the foreign key that it lost. -/
theorem placedAgain {x : Selector m.target} {row again : Row} (distinct : Store.Distinct m.target.fields rows)
    (apart : Store.Distinct m.target.fields (rows.filterMap (m.placed key selectors)))
    (found : rows.find? x.picks = some row)
    (foundAgain : (rows.filterMap (m.placed key selectors)).find? x.picks = some again)
    (stays : x.field.column = m.foreign.column → m.refers key row → m.selects selectors row) :
    m.placed key selectors row = some again := by
  have inside := List.mem_of_find?_eq_some found
  have againMem := List.mem_of_find?_eq_some foundAgain
  have picksAgain := List.find?_some foundAgain
  obtain ⟨other, mem, placing⟩ := List.mem_filterMap.mp againMem
  by_cases column : x.field.column = m.foreign.column
  · by_cases selected : m.selects selectors row
    · rw [placedSelected selected]
      rcases placedCases placing with ⟨-, rfl⟩ | ⟨-, rfl⟩ | ⟨unselected, -, rfl⟩
      · -- both rows refer to the parent now, and the foreign key is a unique column
        have picksRow : x.picks (Record.put row m.foreign.column key) := by
          rw [Selector.picks, column, Row.valuePut] at picksAgain ⊢
          exact picksAgain
        rw [x.picksOne apart (placedMem key inside selected) againMem picksRow picksAgain]
      · -- a row that was detached has no foreign key to be found by
        rw [Selector.picks, column, Row.valuePut] at picksAgain
        cases picksAgain
      · obtain rfl := x.picksOne distinct mem inside picksAgain (List.find?_some found)
        cases selected.symm.trans unselected
    · have unrelated : m.refers key row = false := Bool.eq_false_iff.mpr fun refers => selected (stays column refers)
      have unchanged : m.placed key selectors row = some row := by
        rw [placed, if_neg selected, unrelated, if_neg Bool.false_ne_true]
      have rowMem := List.mem_filterMap.mpr ⟨row, inside, unchanged⟩
      rw [unchanged, x.picksOne apart rowMem againMem (List.find?_some found) picksAgain]
  · have picksOther : x.picks other := by
      rw [Selector.picks, placedOther column placing] at picksAgain
      exact picksAgain
    obtain rfl := x.picksOne distinct mem inside picksOther (List.find?_some found)
    exact placing

theorem pickedAgain (distinct : Store.Distinct m.target.fields rows)
    (apart : Store.Distinct m.target.fields (rows.filterMap (m.placed key selectors))) {x : Selector m.target}
    (mem : x ∈ selectors) {row again : Row} (found : rows.find? x.picks = some row)
    (foundAgain : (rows.filterMap (m.placed key selectors)).find? x.picks = some again) :
    again = Record.put row m.foreign.column key := by
  have selected : m.selects selectors row := List.any_eq_true.mpr ⟨x, mem, List.find?_some found⟩
  have placing := placedAgain distinct apart found foundAgain fun _ _ => selected
  rw [placedSelected selected] at placing
  exact (Option.some.inj placing).symm

theorem refersSelected (places : Store.Places key) (distinct : Store.Distinct m.target.fields rows)
    (apart : Store.Distinct m.target.fields (rows.filterMap (m.placed key selectors))) (picks : m.Picks selectors rows keys)
    (refound : m.Picks selectors (rows.filterMap (m.placed key selectors)) again) {next : Row}
    (mem : next ∈ rows.filterMap (m.placed key selectors)) (refers : m.refers key next) :
    m.selects selectors next := by
  obtain ⟨row, inside, placing⟩ := List.mem_filterMap.mp mem
  -- a row that refers to the parent now was selected, and its selector finds it again
  have selected : m.selects selectors row := (placedRefers places placing).symm.trans refers
  obtain ⟨x, among, selecting⟩ := List.any_eq_true.mp selected
  obtain ⟨-, -, first, found, -⟩ := picksSelector picks x among
  obtain ⟨-, -, second, foundAgain, -⟩ := picksSelector refound x among
  obtain rfl := x.picksOne distinct inside (List.mem_of_find?_eq_some found) selecting (List.find?_some found)
  rw [placedSelected selected] at placing
  have same := pickedAgain distinct apart among found foundAgain
  obtain rfl : second = next := same.trans (Option.some.inj placing)
  exact List.any_eq_true.mpr ⟨x, among, List.find?_some foundAgain⟩

theorem selectedHeld (distinct : Store.Distinct m.target.fields rows)
    (apart : Store.Distinct m.target.fields (rows.filterMap (m.placed key selectors))) (picks : m.Picks selectors rows keys)
    (refound : m.Picks selectors (rows.filterMap (m.placed key selectors)) again) {next : Row}
    (mem : next ∈ rows.filterMap (m.placed key selectors)) (selected : m.selects selectors next) :
    Record.put next m.foreign.column key = next := by
  obtain ⟨x, among, selecting⟩ := List.any_eq_true.mp selected
  obtain ⟨-, -, first, found, -⟩ := picksSelector picks x among
  obtain ⟨-, -, second, foundAgain, -⟩ := picksSelector refound x among
  obtain rfl := x.picksOne apart mem (List.mem_of_find?_eq_some foundAgain) selecting (List.find?_some foundAgain)
  rw [pickedAgain distinct apart among found foundAgain]
  exact Record.putSame (Record.getPut first m.foreign.column key).1

section Statements

theorem writeKeyKeeps {condition : Condition} {v : Value}
    (columns : Record.get? s.backend.fields m.target.table = some m.target.fields)
    (stored : Record.get? s.backend.tables m.target.table = some rows)
    (nothing : ∀ operand, m.foreign.encode v = .ok operand → ∀ row ∈ rows,
      (∃ truth, Store.matchesRow s.backend.tables m.target.table condition row = .ok truth) →
        Store.isMatch s.backend.tables m.target.table condition row →
          Record.put row m.foreign.column operand = row) :
    Keeps ((Context.mk registry h).writeKey m.owned condition v) s := by
  have held : m.foreign ∈ m.target.fields := List.mem_of_find?_eq_some m.foreignFound
  unfold Context.writeKey
  rw [m.keys.foreignKeyOk]
  refine Keeps.liftBind fun f known => ?_
  cases known
  refine Keeps.liftBind fun operand encoded => Keeps.bind ?_ fun w t _ => rfl
  unfold Keeps
  rw [Context.updateRun]
  refine Store.updateNothing stored fun row mem decided matched fields known => ?_
  obtain rfl : fields = m.target.fields := Option.some.inj ((Store.fieldsOfOk known).symm.trans columns)
  exact (Store.assignedSet held m.target.table operand row).trans (nothing operand encoded row mem decided matched)

theorem releaseKeeps {parent : Row} (picks : m.Picks selectors rows keys) (distinct : Store.Distinct m.target.fields rows)
    (present : ∀ row ∈ rows, (m.primaryOf row).isNothing = false)
    (columns : Record.get? s.backend.fields m.target.table = some m.target.fields)
    (stored : Record.get? s.backend.tables m.target.table = some rows)
    (settled : ∀ row ∈ rows, m.refers key row → m.selects selectors row) :
    Keeps ((Context.mk registry h).releaseRelated (m.parent parent) m.owned (m.leaving key keys)) s := by
  have unmatched : ∀ row ∈ rows,
      (∃ truth, Store.matchesRow s.backend.tables m.target.table (m.leaving key keys) row = .ok truth) →
        Store.isMatch s.backend.tables m.target.table (m.leaving key keys) row = false := by
    intro row mem decided
    rw [leavingMatches picks distinct present mem _ decided]
    cases refers : m.refers key row with
    | true => rw [settled row mem refers]; rfl
    | false => rfl
  unfold Context.releaseRelated
  split
  · refine Keeps.bind ?_ fun n t _ => rfl
    refine writeKeyKeeps columns stored fun operand encoded row mem decided matched => ?_
    rw [unmatched row mem decided] at matched
    cases matched
  · refine Keeps.bind ?_ fun w t _ => rfl
    unfold Keeps
    rw [Context.deleteRun]
    exact Store.deleteNothing stored unmatched

theorem attachKeeps {found : List Row} {v : Value} (picks : m.Picks selectors rows keys)
    (distinct : Store.Distinct m.target.fields rows)
    (present : ∀ row ∈ rows, (m.primaryOf row).isNothing = false) (encodes : m.foreign.encode v = .ok key)
    (columns : Record.get? s.backend.fields m.target.table = some m.target.fields)
    (stored : Record.get? s.backend.tables m.target.table = some rows)
    (settled : ∀ row ∈ rows, m.selects selectors row → Record.put row m.foreign.column key = row) :
    Keeps ((Context.mk registry h).attachRelated m.owned found (m.among keys) v) s := by
  unfold Context.attachRelated
  split
  · refine Keeps.bind ?_ fun n t _ => rfl
    refine writeKeyKeeps columns stored fun operand encoded row mem decided matched => ?_
    obtain rfl : operand = key := Except.ok.inj (encoded.symm.trans encodes)
    rw [amongMatches picks distinct present mem _ rfl decided] at matched
    exact settled row mem matched
  · rfl

theorem setAgainKeeps {parent : Row} (places : Store.Places key) (distinct : Store.Distinct m.target.fields rows)
    (picks : m.Picks selectors rows keys) (held : m.Stored s.backend (rows.filterMap (m.placed key selectors)))
    (same : ∀ other, (Row.value parent m.relation.own.field).isNothing = false →
      m.foreign.encode (Row.value parent m.relation.own.field) = .ok other → other = key) :
    Keeps ((Context.mk registry h).setRelated (m.parent parent) m.relation.name
      (.ok (selectors.map Selector.predicate))) s := by
  rw [setSteps]
  refine Keeps.bind (Context.requireAllKeeps _ _ _ _ s) fun found u required => ?_
  refine Keeps.liftBind fun v keyed => Keeps.liftBind fun condition asked => Keeps.liftBind fun among listed => ?_
  obtain ⟨kept, other, again, encodes, refound, counted, rfl, leaves⟩ := setPrepared held required keyed asked listed
  obtain ⟨there, rfl⟩ := Parent.keyOk keyed
  obtain rfl := same other there encodes
  obtain ⟨sameColumns, sameTables⟩ := Prod.mk.inj kept
  rw [leaves]
  -- nobody leaves the second time, and whoever is attached refers to the parent already
  have releasing : Keeps ((Context.mk registry h).releaseRelated (m.parent parent) m.owned (m.leaving other again)) u := by
    refine releaseKeeps refound held.distinct held.present (sameColumns ▸ held.targetColumns)
      (sameTables ▸ held.stored) fun row mem refers => ?_
    exact refersSelected places distinct held.distinct picks refound mem refers
  refine Keeps.bind releasing fun _ w released => ?_
  unfold Keeps at releasing
  rw [released] at releasing
  obtain ⟨columns, tables⟩ := Prod.mk.inj (releasing.trans kept)
  refine attachKeeps refound held.distinct held.present encodes (columns ▸ held.targetColumns)
    (tables ▸ held.stored) fun row mem selected => ?_
  exact selectedHeld distinct held.distinct picks refound mem selected

end Statements

section After

variable {row next owner : Row} {b after : Store}

theorem placedValue (column : String) (placing : m.placed key selectors row = some next) :
    Row.value next column = Row.value row column ∨
      (column = m.foreign.column ∧ m.selects selectors row ∧ Row.value next column = key) ∨
        Row.value next column = .null := by
  by_cases foreign : column = m.foreign.column
  · rw [foreign]
    rcases placedCases placing with ⟨selected, rfl⟩ | ⟨-, rfl⟩ | ⟨-, -, rfl⟩
    · exact .inr (.inl ⟨rfl, selected, Row.valuePut row m.foreign.column key⟩)
    · exact .inr (.inr (Row.valuePut row m.foreign.column .null))
    · exact .inl rfl
  · exact .inl (placedOther foreign placing)

theorem storedAfter (held : m.Stored b rows)
    (apart : Store.Distinct m.target.fields (rows.filterMap (m.placed key selectors)))
    (content : after.content =
      (b.fields, Record.replace b.tables m.target.table (rows.filterMap (m.placed key selectors)))) :
    m.Stored after (rows.filterMap (m.placed key selectors)) := by
  obtain ⟨columns, tables⟩ := Prod.mk.inj content
  have stored : Record.get? after.tables m.target.table = some (rows.filterMap (m.placed key selectors)) := by
    rw [tables]
    refine Record.get?_replace ?_
    rw [held.stored]
    rfl
  have primaries : ∀ next ∈ rows.filterMap (m.placed key selectors), ∃ row ∈ rows,
      Row.value next m.target.primaryKey.column = Row.value row m.target.primaryKey.column := by
    intro next mem
    obtain ⟨row, inside, placing⟩ := List.mem_filterMap.mp mem
    exact ⟨row, inside, placedOther m.apart placing⟩
  refine ⟨columns ▸ held.ownerColumns, columns ▸ held.targetColumns, stored, ?_, apart, ?_⟩
  · intro next mem
    obtain ⟨row, inside, same⟩ := primaries next mem
    exact same ▸ held.present row inside
  · intro next mem
    obtain ⟨row, inside, same⟩ := primaries next mem
    exact same ▸ held.primaries row inside

/-- A second run finds the parent and its key again: in a table that refers to itself, a parent that is found through
the foreign key does not leave itself, and one that is set as its own related row through documents that are both its
key and its foreign key has them stored as they are written. -/
def Steady (m : ManyRelation registry) (selector : Selector m.owner) (selectors : List (Selector m.target)) (owner : Row)
    (key : Value) : Prop :=
  m.owner.table = m.target.table →
    (selector.field.column = m.foreign.column → m.refers key owner → m.selects selectors owner) ∧
      (m.own.column = m.foreign.column → m.foreign.type = .json → m.selects selectors owner →
        Row.value owner m.own.column = key)

/-- The own column of the parent that is found afterwards is as it was, or is the foreign key that was written. -/
theorem ownAgain {selector : Selector m.owner} {owners others : List Row} {again : Row} (held : m.Stored b rows)
    (apart : Store.Distinct m.target.fields (rows.filterMap (m.placed key selectors)))
    (there : Record.get? b.tables m.owner.table = some owners) (found : owners.find? selector.picks = some owner)
    (content : after.content =
      (b.fields, Record.replace b.tables m.target.table (rows.filterMap (m.placed key selectors))))
    (later : Record.get? after.tables m.owner.table = some others) (foundAgain : others.find? selector.picks = some again)
    (steady : m.Steady selector selectors owner key) :
    Row.value again m.own.column = Row.value owner m.own.column ∨
      (m.owner.table = m.target.table ∧ m.own.column = m.foreign.column ∧ m.selects selectors owner ∧
        Row.value again m.own.column = key) ∨
      Row.value again m.own.column = .null := by
  obtain ⟨-, tables⟩ := Prod.mk.inj content
  by_cases table : m.owner.table = m.target.table
  · obtain rfl : owners = rows := Option.some.inj ((table ▸ there).symm.trans held.stored)
    have stored : Record.get? after.tables m.owner.table = some (owners.filterMap (m.placed key selectors)) := by
      rw [tables, table]
      refine Record.get?_replace ?_
      rw [held.stored]
      rfl
    obtain rfl := Option.some.inj (later.symm.trans stored)
    obtain ⟨x, samePicks, sameColumn⟩ : ∃ x : Selector m.target, x.picks = selector.picks ∧
        x.field.column = selector.field.column := by
      rw [← m.tables table]
      exact ⟨selector, rfl, rfl⟩
    have placing := placedAgain held.distinct apart (samePicks ▸ found) (samePicks ▸ foundAgain)
      (sameColumn ▸ (steady table).1)
    -- the own column may itself be the foreign key that was set, or taken away
    rcases placedValue m.own.column placing with kept | ⟨column, selected, given⟩ | emptied
    · exact .inl kept
    · exact .inr (.inl ⟨table, column, selected, given⟩)
    · exact .inr (.inr emptied)
  · rw [tables, Record.get?_replace_of_ne table, there] at later
    obtain rfl := Option.some.inj later
    rw [found] at foundAgain
    obtain rfl := Option.some.inj foundAgain
    exact .inl rfl

theorem keyAgain {again parent next : Row} (reads : m.owner.Reads owner parent) (readsAgain : m.owner.Reads again next)
    (written : m.foreign.encode (Row.value parent m.relation.own.field) = .ok key) (there : key.isNothing = false)
    {selector : Selector m.owner} (steady : m.Steady selector selectors owner key)
    (own : Row.value again m.own.column = Row.value owner m.own.column ∨
      (m.owner.table = m.target.table ∧ m.own.column = m.foreign.column ∧ m.selects selectors owner ∧
        Row.value again m.own.column = key) ∨
      Row.value again m.own.column = .null) {v : Value}
    (present : (Row.value next m.relation.own.field).isNothing = false)
    (writtenAgain : m.foreign.encode (Row.value next m.relation.own.field) = .ok v) : v = key := by
  have named : m.own.name = m.relation.own.field := by simpa using List.find?_some m.ownFound
  have held : m.own ∈ m.owner.fields := List.mem_of_find?_eq_some m.ownFound
  rw [← named] at written present writtenAgain
  obtain ⟨raw, returned, decodes⟩ := Entity.readsValue m.ownerNames reads held
  obtain ⟨rawAgain, returnedAgain, decodesAgain⟩ := Entity.readsValue m.ownerNames readsAgain held
  have sameValue : Row.value again m.own.column = Row.value owner m.own.column → v = key := by
    intro kept
    rw [kept, returned] at returnedAgain
    cases returnedAgain
    rw [decodes] at decodesAgain
    rw [← Except.ok.inj decodesAgain, written] at writtenAgain
    exact (Except.ok.inj writtenAgain).symm
  rcases own with kept | ⟨table, column, selected, given⟩ | emptied
  · exact sameValue kept
  · by_cases json : m.foreign.type = .json
    · exact sameValue (given.trans ((steady table).2 column json selected).symm)
    · have foreignHeld : m.foreign ∈ m.target.fields := List.mem_of_find?_eq_some m.foreignFound
      have same : m.own = m.foreign := by
        have inside : m.own ∈ m.target.fields := m.tables table ▸ held
        exact List.inj_on_of_nodup_map m.targetColumns inside foreignHeld column
      obtain ⟨unchanged, read, decodesKey, writes⟩ :=
        Field.readAgain m.targetColumns foreignHeld m.keyed.1 json written there
      rw [given, column, m.tables table, unchanged] at returnedAgain
      cases returnedAgain
      rw [same, decodesKey] at decodesAgain
      rw [same, ← Except.ok.inj decodesAgain, writes] at writtenAgain
      exact (Except.ok.inj writtenAgain).symm
  · rw [emptied] at returnedAgain
    cases returnedAgain
    rw [Field.decode_of_isNothing rfl] at decodesAgain
    rw [← Except.ok.inj decodesAgain] at present
    cases present

end After

end ManyRelation

end EntityQuery
