import EntityQuery.Proofs.CreatedRows
import EntityQuery.Proofs.TargetRelations
/-! Relations of one row: a row that is connected or created takes the place of those that referred to the parent, which
lose their key, or is refused where they may not be without one. -/

namespace EntityQuery

/-- A row whose primary key can be named is in a table once. -/
theorem OwnedRelation.Keys.once {o : OwnedRelation} (k : o.Keys) {before after : List Row} {row : Row} {key : Value}
    (distinct : Store.Distinct o.target.fields (before ++ row :: after)) (named : o.Names row key) :
    ∀ other ∈ before ++ after, other ≠ row := by
  rintro other mem rfl
  have primary : (o.target.primaryKey.primaryKey || o.target.primaryKey.unique) = true := by rw [k.primary, Bool.true_or]
  obtain ⟨places, equal⟩ := named
  obtain ⟨there, -, same⟩ := Store.meetsOk equal
  refine (Store.distinctMiddle.mp distinct).1 other mem _ k.primaryHeld primary ?_
  have missing : ((o.primaryOf other).isNothing || (o.primaryOf other).isNothing) = false := by rw [there, Bool.or_self]
  exact (if_neg (Bool.eq_false_iff.mp missing)).trans (Store.sameTrans places same same)

namespace TargetRelation

variable {registry : Registry Fetcher} {m : TargetRelation registry} {h : Handle} {s t : Session Store} {rows : List Row}
  {key : Value}

/-- What becomes of a row that is not to refer to the parent. -/
def detached (m : TargetRelation registry) (key : Value) (row : Row) : Row :=
  if m.keys.refers key row then Record.put row m.keys.foreign.column .null else row

theorem detachedRefers (key : Value) (row : Row) : m.keys.refers key (m.detached key row) = false := by
  unfold detached
  split
  · exact m.keys.refersNull key row
  · rename_i unrelated
    exact Bool.eq_false_iff.mpr unrelated

theorem detachedPrimary (apart : m.owned.target.primaryKey.column ≠ m.keys.foreign.column) (key : Value) (row : Row) :
    m.owned.primaryOf (m.detached key row) = m.owned.primaryOf row := by
  unfold detached
  split
  · exact Row.valuePutOther row .null apart
  · rfl

theorem detachedKept {row : Row} (unrelated : m.keys.refers key row = false) : m.detached key row = row :=
  if_neg (Bool.eq_false_iff.mp unrelated)

/-- The rows of the target after a row came to be the only one that refers to the parent, between others of which those
that did lost their key; where it may not be null, there were none. -/
structure Takes (m : TargetRelation registry) (key : Value) (before after : List Row) (row : Row) (next : List Row) : Prop where
  placed : next = before.map (m.detached key) ++ row :: after.map (m.detached key)
  sole : next.filter (m.keys.refers key) = [row]
  required : m.owned.relation.foreignKeyNullable = false → ∀ other ∈ before ++ after, m.keys.refers key other = false

theorem takes {before after : List Row} {row : Row} (refers : m.keys.refers key row)
    (required : m.owned.relation.foreignKeyNullable = false → ∀ other ∈ before ++ after, m.keys.refers key other = false) :
    m.Takes key before after row (before.map (m.detached key) ++ row :: after.map (m.detached key)) := by
  have nobody : ∀ others : List Row, (others.map (m.detached key)).filter (m.keys.refers key) = [] := by
    intro others
    rw [List.filter_eq_nil_iff]
    intro next mem
    obtain ⟨other, -, rfl⟩ := List.mem_map.mp mem
    simp [detachedRefers]
  refine ⟨rfl, ?_, required⟩
  rw [List.filter_append, nobody, List.filter_cons_of_pos refers, nobody, List.nil_append]

section Detached

variable {parent : Row} {kept : Option Row} {selectors : List Predicate} {u : Session Store}

theorem keysCounted {P : Predicate → Row → Prop} {Q : Predicate → Value → Prop} {keys : List Value}
    (reads : List.Forall₂ P selectors kept.toList) (named : List.Forall₂ Q selectors keys) : keys.isEmpty = kept.isNone := by
  cases kept with
  | none =>
    cases reads
    cases named
    rfl
  | some row =>
    cases reads
    cases named
    rfl

/-- The rows besides those that selectors found lose their key, or the check told that none of them has it. -/
theorem detachRows (kept : Option Row) (held : m.keys.Stored s.backend rows) (one : m.owned.relation.kind = .hasOne)
    (written : m.keys.foreign.encode (Row.value parent m.owned.relation.own.field) = .ok key)
    (reads : m.Finds s.backend.tables rows selectors kept.toList)
    (now : m.owned.WithRows s.backend rows u.backend)
    (ran : ((Context.mk registry h).detachCurrent (m.parent parent) m.owned kept).runOn u = (.ok (), t)) :
    ∃ g : Row → Row, m.owned.WithRows s.backend (rows.map g) t.backend ∧ ∀ row ∈ rows,
      ((∃ selector ∈ selectors, m.find s.backend.tables rows selector = some row) → g row = row) ∧
        ((¬ ∃ selector ∈ selectors, m.find s.backend.tables rows selector = some row) → g row = m.detached key row ∧
          (m.owned.relation.foreignKeyNullable = false → m.keys.refers key row = false)) := by
  obtain ⟨other, among, again, listed, released⟩ := Context.detachOk m.keys one ran
  obtain rfl : other = key := Except.ok.inj (again.symm.trans written)
  obtain ⟨keys, rfl, named⟩ := m.keys.amongOk reads (fun _ _ => findMem) held.primaries listed
  rw [Context.leavingOf m.keys (keysCounted reads named)] at released
  have leaves : ∀ row ∈ rows,
      (∃ truth, Store.matchesRow u.backend.tables m.owned.target.table (m.keys.leaving other keys) row = .ok truth) →
        (Store.isMatch u.backend.tables m.owned.target.table (m.keys.leaving other keys) row ↔
        m.keys.refers other row ∧ ¬ ∃ selector ∈ selectors, m.find s.backend.tables rows selector = some row) :=
    fun row mem => OwnedRelation.Keys.leavingMatch named (fun _ _ => findMem) held.distinct held.present mem
  cases nullable : m.owned.relation.foreignKeyNullable with
  | true =>
    obtain ⟨truths, after⟩ := Context.releaseDetached nullable held now released
    refine ⟨_, after, fun row mem => ?_⟩
    have matching := leaves row mem (truths row mem)
    refine ⟨fun found => if_neg fun matched => (matching.mp matched).2 found, fun missed => ⟨?_, nofun⟩⟩
    unfold OwnedRelation.Keys.rewritten detached
    simp only [matching, missed, not_false_eq_true, and_true]
  | false =>
    obtain ⟨truths, nobody, same⟩ := Context.releaseChecked nullable (OwnedRelation.Keys.withRowsStored held now) released
    refine ⟨id, ?_, fun row mem => ⟨fun _ => rfl, fun missed => ?_⟩⟩
    · rw [List.map_id]
      exact same.trans now
    · have unrelated : m.keys.refers other row = false := Bool.eq_false_iff.mpr fun refers =>
        Bool.false_ne_true ((nobody row mem).symm.trans ((leaves row mem (truths row mem)).mpr ⟨refers, missed⟩))
      exact ⟨(detachedKept unrelated).symm, fun _ => unrelated⟩

/-- Of the rows as they are by now, those that selectors found get the key. -/
theorem attachRows {found : List Row} {among : Condition} {v : Value} {n : Number} {g : Row → Row}
    (held : m.keys.Stored s.backend rows) (written : m.keys.foreign.encode v = .ok key)
    (reads : m.Finds s.backend.tables rows selectors found)
    (listed : m.owned.among found = .ok among) (now : m.owned.WithRows s.backend (rows.map g) u.backend)
    (same : ∀ row ∈ rows, m.owned.primaryOf (g row) = m.owned.primaryOf row)
    (ran : ((Context.mk registry h).writeKey m.owned among v).runOn u = (.ok n, t)) :
    ∃ next : Row → Row, m.owned.WithRows s.backend (rows.map next) t.backend ∧ ∀ row ∈ rows,
      ((∃ selector ∈ selectors, m.find s.backend.tables rows selector = some row) →
        next row = Record.put (g row) m.keys.foreign.column key) ∧
      ((¬ ∃ selector ∈ selectors, m.find s.backend.tables rows selector = some row) → next row = g row) := by
  obtain ⟨keys, rfl, named⟩ := m.keys.amongOk reads (fun _ _ => findMem) held.primaries listed
  obtain ⟨operand, again, truths, after⟩ := OwnedRelation.Keys.writeKeyRows held now ran
  obtain rfl : key = operand := Except.ok.inj (written.symm.trans again)
  rw [List.map_map] at after
  refine ⟨_, after, fun row mem => ?_⟩
  have matching := m.keys.amongMatch named (fun _ _ => findMem) held.distinct held.present mem (same row mem)
    (truths (g row) (List.mem_map_of_mem mem))
  exact ⟨fun picked => if_pos (matching.mpr picked), fun missed => if_neg (mt matching.mp missed)⟩

/-- The row that one selector finds is in one place, and the selector finds none of the others. -/
theorem foundOnce {selector : Predicate} {decoded : Row} {among : Condition} (held : m.keys.Stored s.backend rows)
    (reads : m.Finds s.backend.tables rows [selector] [decoded]) (listed : m.owned.among [decoded] = .ok among) :
    ∃ before row after, rows = before ++ row :: after ∧ m.find s.backend.tables rows selector = some row ∧
      ∀ other ∈ before ++ after, ¬ ∃ x ∈ [selector], m.find s.backend.tables rows x = some other := by
  obtain ⟨keys, -, named⟩ := m.keys.amongOk reads (fun _ _ => findMem) held.primaries listed
  cases named with
  | cons first _ =>
    obtain ⟨row, found, names⟩ := first
    obtain ⟨before, after, listing⟩ := List.append_of_mem (findMem found)
    have distinct : Store.Distinct m.owned.target.fields (before ++ row :: after) := by
      rw [← listing]
      exact held.distinct
    refine ⟨before, row, after, listing, found, fun other inside ⟨x, listed, picked⟩ => ?_⟩
    obtain rfl := List.mem_singleton.mp listed
    exact m.keys.once distinct names other inside (Option.some.inj (picked.symm.trans found))

/-- The row that a selector finds comes to be the only one that refers to the parent. -/
theorem connectTakes {selector : Predicate} (held : m.keys.Stored s.backend rows) (one : m.owned.relation.kind = .hasOne)
    (apart : m.owned.target.primaryKey.column ≠ m.keys.foreign.column)
    (written : m.keys.foreign.encode (Row.value parent m.owned.relation.own.field) = .ok key) (places : Store.Places key)
    (ran : ((Context.mk registry h).connectRelated (m.parent parent) m.owned.relation.name selector).runOn s = (.ok (), t)) :
    ∃ before row after next, rows = before ++ row :: after ∧ m.find s.backend.tables rows selector = some row ∧
      m.owned.WithRows s.backend next t.backend ∧
        m.Takes key before after (Record.put row m.keys.foreign.column key) next := by
  obtain ⟨decoded, u, w, among, n, about, required, detached, listed, attached⟩ := connectOk ran
  have reads : m.Finds s.backend.tables rows [selector] [decoded] := .cons (requireFinds held about required) .nil
  have start : m.owned.WithRows s.backend rows u.backend := (requireKept required).trans (m.keys.withRowsSelf held)
  obtain ⟨g, now, each⟩ := detachRows (some decoded) held one written reads start detached
  have same : ∀ row ∈ rows, m.owned.primaryOf (g row) = m.owned.primaryOf row := by
    intro row mem
    by_cases picked : ∃ x ∈ [selector], m.find s.backend.tables rows x = some row
    · rw [(each row mem).1 picked]
    · rw [((each row mem).2 picked).1, detachedPrimary apart]
  obtain ⟨next, last, writes⟩ := attachRows held written reads listed now same attached
  obtain ⟨before, row, after, listing, found, missed⟩ := foundOnce held reads listed
  have picked : next row = Record.put row m.keys.foreign.column key := by
    have picks : ∃ x ∈ [selector], m.find s.backend.tables rows x = some row := ⟨selector, List.mem_cons_self, found⟩
    rw [(writes row (findMem found)).1 picks, (each row (findMem found)).1 picks]
  have others : ∀ other ∈ before ++ after, next other = m.detached key other ∧
      (m.owned.relation.foreignKeyNullable = false → m.keys.refers key other = false) := by
    intro other inside
    have mem : other ∈ rows := by
      rw [listing, List.mem_append, List.mem_cons]
      exact (List.mem_append.mp inside).imp_right .inr
    rw [(writes other mem).2 (missed other inside)]
    exact (each other mem).2 (missed other inside)
  refine ⟨before, row, after, rows.map next, listing, found, last, ?_⟩
  rw [listing, List.map_append, List.map_cons, picked,
    List.map_congr_left fun other mem => (others other (List.mem_append_left _ mem)).1,
    List.map_congr_left fun other mem => (others other (List.mem_append_right _ mem)).1]
  exact takes (m.keys.refersPut places row) fun required other mem => (others other mem).2 required

/-- A row that is encoded with the key of the parent refers to it, whatever else was given for it. -/
theorem encodedRefers {data values new : Row} (there : (Row.value parent m.owned.relation.own.field).isNothing = false)
    (written : m.keys.foreign.encode (Row.value parent m.owned.relation.own.field) = .ok key) (places : Store.Places key)
    (members : data.names.Nodup)
    (encoded : m.owned.target.encodeRow
      (Record.put data m.owned.relation.remote.field (Row.value parent m.owned.relation.own.field)) = .ok values)
    (holds : ∀ f ∈ m.owned.target.fields, ∀ v, Record.get? values f.column = some v → Row.value new f.column = v) :
    m.keys.refers key new := by
  obtain ⟨mem, name⟩ := Entity.fieldFound m.keys.foreignFound
  have found : m.owned.target.field? m.keys.foreign.name = some m.keys.foreign := by rw [name, m.keys.foreignFound]
  have given := Record.putGives m.keys.foreign.name (Row.value parent m.owned.relation.own.field) members
  have present : Row.value parent m.owned.relation.own.field ≠ .absent := fun absent =>
    Bool.false_ne_true (there.symm.trans (congrArg Value.isNothing absent))
  rw [← name] at encoded
  obtain ⟨w, again, placed⟩ := Entity.encodeGives m.keys.columns found present given encoded
  obtain rfl : key = w := Except.ok.inj (written.symm.trans again)
  unfold OwnedRelation.Keys.refers
  rw [holds _ mem _ placed]
  exact Store.meetsSelf places

/-- The row that is inserted comes to be the only one that refers to the parent. -/
theorem createTakes {data : Row} (held : m.keys.Stored s.backend rows) (one : m.owned.relation.kind = .hasOne)
    (written : m.keys.foreign.encode (Row.value parent m.owned.relation.own.field) = .ok key) (places : Store.Places key)
    (members : data.names.Nodup)
    (ran : ((Context.mk registry h).createRelated (m.parent parent) m.owned.relation.name data).runOn s = (.ok (), t)) :
    ∃ values new next, m.owned.target.encodeRow
        (Record.put data m.owned.relation.remote.field (Row.value parent m.owned.relation.own.field)) = .ok values ∧
      (∀ f ∈ m.owned.target.fields, ∀ v, Record.get? values f.column = some v → Row.value new f.column = v) ∧
        m.owned.WithRows s.backend next t.backend ∧ m.Takes key rows [] new next := by
  obtain ⟨w, decoded, detached, there, inserted⟩ := createOk ran
  obtain ⟨g, now, each⟩ := detachRows none held one written .nil (m.keys.withRowsSelf held) detached
  have missed : ∀ row, ¬ ∃ selector ∈ ([] : List Predicate), m.find s.backend.tables rows selector = some row := by simp
  rw [List.map_congr_left fun row mem => ((each row mem).2 (missed row)).1] at now
  obtain ⟨values, stored, new, encoded, listed, content, -, holds, -⟩ :=
    Context.insertRowOk (m.keys.withRowsColumns held now) inserted
  obtain rfl := Option.some.inj (listed.symm.trans (m.keys.withRowsStored held now))
  refine ⟨values, new, _, encoded, holds, OwnedRelation.Keys.withRowsAgain now content,
    takes (encodedRefers there written places members encoded holds) fun required row mem => ?_⟩
  rw [List.append_nil] at mem
  exact ((each row mem).2 (missed row)).2 required

end Detached

end TargetRelation

end EntityQuery
