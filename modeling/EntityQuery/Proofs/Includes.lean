import EntityQuery.Proofs.SharedRows
/-! Includes loaded for many rows at once and for each row alone. The related rows of all rows are fetched at once, and what
is nested in them is loaded at once; every row still gets what reading its related rows alone gives it, in that order. -/

namespace EntityQuery

namespace Include

/-- Steps over the items of a list, of which the last one is taken over all that the others gave at once, are the steps for
each item: what is given at once is cut apart where it was joined. -/
theorem splitSteps {α β γ δ ε : Type} (l : List α) (first : α → Option β) (next : β → Option (List γ)) (last : γ → Option δ)
    (give : α → β → List δ → ε) :
    (do
      let firsts ← l.mapM first
      let nexts ← firsts.mapM next
      let lasts ← nexts.flatten.mapM last
      return (l.zip ((splitBy (nexts.map List.length) lasts).zip firsts)).map fun x => give x.1 x.2.2 x.2.1) =
        l.mapM fun x => do
          let y ← first x
          let z ← next y
          let out ← z.mapM last
          return give x y out := by
  induction l with
  | nil => rfl
  | cons x rest ih =>
    rw [List.mapM_cons, List.mapM_cons, ← ih]
    simp only [Option.bind_eq_bind, Option.pure_def]
    cases first x with
    | none => rfl
    | some y =>
      cases rest.mapM first with
      | none => simp only [Option.bind_some, Option.bind_none, Option.bind_fun_none]
      | some ys =>
        simp only [Option.bind_some, List.mapM_cons, Option.bind_eq_bind, Option.pure_def]
        cases next y with
        | none => rfl
        | some z =>
          cases ys.mapM next with
          | none => simp only [Option.bind_some, Option.bind_none, Option.bind_fun_none]
          | some zs =>
            simp only [Option.bind_some, List.flatten_cons, List.mapM_append, Option.bind_eq_bind, Option.pure_def]
            cases kept : z.mapM last with
            | none => rfl
            | some out =>
              cases zs.flatten.mapM last with
              | none => rfl
              | some outs =>
                simp only [Option.bind_some, List.map_cons, splitBy, List.zip_cons_cons]
                -- as many came of the first item as it gave, so the cut falls behind them
                rw [← Options.mapLength kept, List.take_left, List.drop_left]

end Include

namespace Context

section Alone

variable {σ : Type} [Backend σ]

/-- Put the counts of one row beside its other members. -/
def withCount (counted : Bool) (row : Row × Record Value) : Row :=
  if counted then Record.put row.1 "_count" (.object row.2) else row.1

/-- The counts of a row, with how many rows are related to it if the include counts them: as many as a fetch for it alone
brings. -/
def countAlone (c : Context) (r : Relation) (target : Entity) (spec : Include) (v : Value) (counts : Record Value) :
    Action σ (Record Value) := do
  if !countsRows spec then return counts
  let all ← c.fetchTable r target [v] spec.filter spec.window
  return Record.put counts spec.relation (.nat all.length)

mutual

/-- Attach includes to one row alone, one after another. -/
def attachAllAlone (c : Context) (e : Entity) (specs : List Include) (row : Row × Record Value) : Action σ (Row × Record Value) :=
  match specs with
  | [] => return row
  | spec :: rest => do
    let row ← attachAlone c e spec row
    attachAllAlone c e rest row
termination_by structural specs

/-- Attach one include to one row alone: read the rows that are related to it, and load the nested includes of each of
those alone. -/
def attachAlone (c : Context) (e : Entity) (spec : Include) (row : Row × Record Value) : Action σ (Row × Record Value) :=
  match spec with
  | .mk relation filter window fields _ nested => do
    let (r, target) ← c.registry.related e (.text relation)
    let v := Row.value row.1 r.own.field
    let related ← c.relatedAlone r target filter window v
    let kids ← related.mapM fun kid => do
      return withCount (nested.any countsRows) (← attachAllAlone c target nested (kid, []))
    let counts ← c.countAlone r target spec v row.2
    return (Record.put row.1 relation (Include.valueOf r (kids.map (Include.project fields (Include.names nested)))), counts)
termination_by structural spec

end

/-- Load the includes of one row alone. -/
def loadAlone (c : Context) (e : Entity) (specs : List Include) (row : Row) : Action σ Row := do
  return withCount (specs.any countsRows) (← c.attachAllAlone e specs (row, []))

end Alone

section Writing

variable {may : WriteStatement → Prop} (c : Context)

theorem relatedAloneWrites (r : Relation) (target : Entity) (filter : List Predicate) (w : Window) (v : Value) :
    Writes may (c.relatedAlone r target filter w v : Action Store (List Row)) := by
  unfold relatedAlone
  split
  · exact .pure _
  · refine .liftBind fun remote _ => .liftBind fun key _ => .liftBind fun condition _ => ?_
    exact c.readRowsWrites _ _ _

theorem countAloneWrites (r : Relation) (target : Entity) (spec : Include) (v : Value) (counts : Record Value) :
    Writes may (c.countAlone r target spec v counts : Action Store (Record Value)) := by
  unfold countAlone
  split
  · exact .pure _
  · exact .bind (c.fetchTableWrites _ _ _ _ _) fun all => .pure _

mutual

theorem attachAllAloneWrites (e : Entity) (specs : List Include) (row : Row × Record Value) :
    Writes may (c.attachAllAlone e specs row : Action Store (Row × Record Value)) := by
  cases specs with
  | nil => exact .pure _
  | cons spec rest => exact .bind (attachAloneWrites e spec row) fun row => attachAllAloneWrites e rest row
termination_by structural specs

theorem attachAloneWrites (e : Entity) (spec : Include) (row : Row × Record Value) :
    Writes may (c.attachAlone e spec row : Action Store (Row × Record Value)) := by
  cases spec with
  | mk relation filter window fields counted nested =>
    unfold attachAlone
    refine .liftBind fun found _ => .bind (c.relatedAloneWrites _ _ _ _ _) fun related => ?_
    refine .bind (Writes.mapAll related fun kid => .bind (attachAllAloneWrites _ nested _) fun row => .pure _) fun kids => ?_
    exact .bind (c.countAloneWrites _ _ _ _ _) fun counts => .pure _
termination_by structural spec

end

theorem loadAloneWrites (e : Entity) (specs : List Include) (row : Row) : Writes may (c.loadAlone e specs row : Action Store Row) :=
  .bind (c.attachAllAloneWrites e specs (row, [])) fun _ => .pure _

end Writing

end Context

namespace Entity

variable {e : Entity} {rows : List Row} {row : Row}

/-- A row that shows what a stored row holds in the fields of its entity, whatever else it has. -/
def Shows (e : Entity) (rows : List Row) (row : Row) : Prop :=
  ∃ stored ∈ rows, ∃ decoded, e.read stored = .ok decoded ∧ ∀ f ∈ e.fields, Row.value row f.name = Row.value decoded f.name

theorem Shows.put (shows : e.Shows rows row) {name : String} (apart : name ∉ e.fields.map (·.name)) (v : Value) :
    e.Shows rows (Record.put row name v) := by
  obtain ⟨stored, mem, decoded, read, same⟩ := shows
  refine ⟨stored, mem, decoded, read, fun f inside => ?_⟩
  have differs : f.name ≠ name := fun equal => apart (List.mem_map.mpr ⟨f, inside, equal⟩)
  rw [Row.valuePutOther row v differs]
  exact same f inside

theorem Shows.key {f : Field} (shows : e.Shows rows row) (names : (e.fields.map (·.name)).Nodup)
    (columns : (e.fields.map (·.column)).Nodup) (mem : f ∈ e.fields) (keyed : f.type.isKeyType) (plain : f.type ≠ .json)
    (keys : ∀ row ∈ rows, f.HoldsKey (Row.value row f.column)) : f.HoldsKey (Row.value row f.name) := by
  obtain ⟨stored, inside, decoded, read, same⟩ := shows
  have holds := keys stored inside
  rw [same f mem, readKey names columns mem keyed plain holds read]
  cases there : (Row.value stored f.column).isNothing with
  | true =>
    rw [Value.orNullMissing there]
    exact .inl rfl
  | false => rwa [Value.orNullThere there]

end Entity

/-- What is asked of an include of an entity, of the rows it is loaded for, and of the stored rows of its target, for every
level of includes: the relation is named like no field, its rows are read from a table, and its keys are as they are
written. -/
inductive Include.Fits (c : Context) (b : Store) : Entity → List Row → Include → Prop where
  | mk {e target : Entity} {rows found : List Row} {relation : String} {filter : List Predicate} {window : Window}
    {fields : List String} {counted : Bool} {nested : List Include} {r : Relation} {f g : Field}
    (apart : relation ∉ e.fields.map (·.name))
    (counts : window.Counts)
    (related : c.registry.related e (.text relation) = .ok (r, target))
    (fetcher : c.registry.fetcher target.name = .ok .table)
    (joins : r.Joins e target f g window b found)
    (keys : ∀ row ∈ rows, f.HoldsKey (Row.value row f.column))
    (inner : ∀ i ∈ nested, Fits c b target found i) :
    Fits c b e rows (.mk relation filter window fields counted nested)

theorem Include.Fits.named {c : Context} {b : Store} {e : Entity} {rows : List Row} {spec : Include} (fits : Fits c b e rows spec) :
    spec.relation ∉ e.fields.map (·.name) := by
  cases fits with
  | mk apart => exact apart

namespace Context

variable {c : Context} {r : Relation} {e target : Entity} {f g : Field} {w : Window} {s : Session Store} {rows found : List Row}
  {filter : List Predicate} {v : Value}

/-- The rows that a fetch brings show stored rows. -/
theorem fetchShows (joins : r.Joins e target f g w s.backend found) (holds : g.HoldsKey v) {related : List Row}
    (answered : (c.fetchTable r target [v] filter w : Action Store (List Row)).answer s = some related) :
    ∀ row ∈ related, target.Shows found row := by
  rw [fetchOne joins holds] at answered
  split at answered
  · cases answered
    exact fun row mem => absurd mem List.not_mem_nil
  · obtain ⟨kept, reached, rfl⟩ := Option.map_eq_some_iff.mp answered
    intro row mem
    obtain ⟨stored, listed, rfl⟩ := List.mem_map.mp mem
    have inside := reachableInside reached stored (List.mem_filter.mp listed).1
    obtain ⟨decoded, read⟩ := joins.readable.reads stored inside
    refine ⟨stored, inside, decoded, read, fun f mem => ?_⟩
    unfold Entity.view
    rw [read]
    rfl

/-- An include adds nothing to a row but a value under the name of its relation. -/
theorem attachAlonePuts {spec : Include} {row out : Row × Record Value}
    (answered : (c.attachAlone e spec row : Action Store (Row × Record Value)).answer s = some out) :
    ∃ v, out.1 = Record.put row.1 spec.relation v := by
  obtain ⟨⟨_, t⟩, ended, rfl⟩ := Option.map_eq_some_iff.mp answered
  obtain ⟨u, ran, -⟩ := Action.outcomeRan ended
  cases spec with
  | mk relation filter window fields counted nested =>
    unfold attachAlone at ran
    obtain ⟨found, -, ran⟩ := Step.liftOk ran
    obtain ⟨related, _, -, ran⟩ := Step.bindOk ran
    obtain ⟨kids, _, -, ran⟩ := Step.bindOk ran
    obtain ⟨counts, _, -, ran⟩ := Step.bindOk ran
    cases ran
    exact ⟨_, rfl⟩

/-- What an include attaches to rows at once it attaches to each of them alone. -/
def AttachesAlone (c : Context) (s : Session Store) (e : Entity) (rows : List Row) (spec : Include) : Prop :=
  ∀ parents : Counted, (∀ p ∈ parents, e.Shows rows p.1) →
    (c.attach e spec parents : Action Store Counted).answer s =
      parents.mapM fun p => (c.attachAlone e spec p : Action Store (Row × Record Value)).answer s

theorem attachAllEach {specs : List Include} (apart : ∀ i ∈ specs, i.relation ∉ e.fields.map (·.name))
    (each : ∀ i ∈ specs, c.AttachesAlone s e rows i) {parents : Counted} (shows : ∀ p ∈ parents, e.Shows rows p.1) :
    (c.attachAll e specs parents : Action Store Counted).answer s =
      parents.mapM fun p => (c.attachAllAlone e specs p : Action Store (Row × Record Value)).answer s := by
  induction specs generalizing parents with
  | nil =>
    have same := Options.mapSome (l := parents) (f := fun p => (c.attachAllAlone e [] p : Action Store (Row × Record Value)).answer s)
      (g := id) fun p mem => rfl
    rw [same, List.map_id]
    rfl
  | cons spec rest ih =>
    have one : ∀ p : Row × Record Value, (c.attachAllAlone e (spec :: rest) p : Action Store (Row × Record Value)).answer s =
        ((c.attachAlone e spec p : Action Store (Row × Record Value)).answer s).bind fun p =>
          (c.attachAllAlone e rest p : Action Store (Row × Record Value)).answer s :=
      fun p => (c.attachAloneWrites e spec p).answerBind (fun p => c.attachAllAloneWrites e rest p) s
    refine ((c.attachWrites e spec parents).answerBind (fun parents => c.attachAllWrites e rest parents) s).trans ?_
    rw [each spec List.mem_cons_self parents shows, Options.mapCongr fun p _ => one p, ← Options.mapBind]
    refine Option.bind_congr fun after answered => ?_
    refine ih (fun i mem => apart i (List.mem_cons_of_mem spec mem)) (fun i mem => each i (List.mem_cons_of_mem spec mem)) ?_
    -- no relation is named like a field, so the later includes find the keys of the rows as they were
    intro q mem
    obtain ⟨p, inside, attached⟩ := Options.mapItems answered q mem
    obtain ⟨v, put⟩ := attachAlonePuts attached
    rw [put]
    exact (shows p inside).put (apart spec List.mem_cons_self) v

/-- Includes of rows that are loaded at once are loaded for each row alone. -/
theorem attachedAlone {specs : List Include} (apart : ∀ i ∈ specs, i.relation ∉ e.fields.map (·.name))
    (each : ∀ i ∈ specs, c.AttachesAlone s e rows i) {parents : List Row} (shows : ∀ row ∈ parents, e.Shows rows row) :
    ((withCounts (specs.any countsRows) <$> c.attachAll e specs (parents.map fun row => (row, []))) : Action Store (List Row)).answer s =
      parents.mapM fun row => (c.loadAlone e specs row : Action Store Row).answer s := by
  have shown : ∀ p ∈ parents.map fun row => ((row, []) : Row × Record Value), e.Shows rows p.1 := by
    intro p mem
    obtain ⟨row, inside, rfl⟩ := List.mem_map.mp mem
    exact shows row inside
  have one : ∀ row, (c.loadAlone e specs row : Action Store Row).answer s =
      ((c.attachAllAlone e specs (row, []) : Action Store (Row × Record Value)).answer s).bind fun p =>
        some (withCount (specs.any countsRows) p) :=
    fun row => (c.attachAllAloneWrites e specs (row, [])).answerBind (fun p => .pure _) s
  rw [map_eq_pure_bind, (c.attachAllWrites e specs _).answerBind fun parents => .pure _, attachAllEach apart each shown,
    List.mapM_map, Options.mapCongr fun row _ => one row, ← Options.mapBind]
  refine congrArg _ (funext fun after => ?_)
  exact (Options.mapSome fun p _ => rfl).symm

/-- A row with what an include gives it: the rows it keeps, and how many there are in all. -/
def attachTo (r : Relation) (spec : Include) (row : Row × Record Value) (all kids : List Row) : Row × Record Value :=
  match spec with
  | .mk relation _ _ fields counted nested =>
    (Record.put row.1 relation (Include.valueOf r (kids.map (Include.project fields (Include.names nested)))),
      if counted then Record.put row.2 relation (.nat all.length) else row.2)

/-- The rows that one value gets of an include: those that a fetch for it brings, cut by the window, with the nested
includes of every row loaded alone. -/
def attachOne (c : Context) (r : Relation) (target : Entity) (spec : Include) (s : Session Store) (row : Row × Record Value) :
    Option (Row × Record Value) :=
  match spec with
  | .mk _ filter window _ _ nested => do
    let all ← (c.fetchTable r target [Row.value row.1 r.own.field] filter window : Action Store (List Row)).answer s
    let cut ← (window.apply all).toOption
    let kids ← cut.mapM fun kid => (c.loadAlone target nested kid : Action Store Row).answer s
    return attachTo r spec row all kids

section Level

variable {relation : String} {window : Window} {fields : List String} {counted : Bool} {nested : List Include}

theorem countAnswer (spec : Include) {counts : Record Value} {all : List Row}
    (fetched : (c.fetchTable r target [v] spec.filter spec.window : Action Store (List Row)).answer s = some all) :
    (c.countAlone r target spec v counts : Action Store (Record Value)).answer s =
      some (if countsRows spec then Record.put counts spec.relation (.nat all.length) else counts) := by
  unfold countAlone
  cases countsRows spec with
  | false => rfl
  | true =>
    refine ((c.fetchTableWrites _ _ _ _ _).answerBind (fun all => .pure _) s).trans ?_
    rw [fetched]
    rfl

theorem attachAloneAnswer (related : c.registry.related e (.text relation) = .ok (r, target))
    (joins : r.Joins e target f g window s.backend found) (counts : window.Counts) {row : Row × Record Value}
    (holds : g.HoldsKey (Row.value row.1 r.own.field)) :
    (c.attachAlone e (.mk relation filter window fields counted nested) row : Action Store (Row × Record Value)).answer s =
      c.attachOne r target (.mk relation filter window fields counted nested) s row := by
  have loads : ∀ kid, Writes (fun _ => False) (c.loadAlone target nested kid : Action Store Row) := c.loadAloneWrites target nested
  have counted : ∀ kids : List Row, Writes (fun _ => False) (do
      let counts ← c.countAlone r target (.mk relation filter window fields counted nested) (Row.value row.1 r.own.field) row.2
      return (Record.put row.1 relation (Include.valueOf r (kids.map (Include.project fields (Include.names nested)))), counts)) :=
    fun kids => .bind (c.countAloneWrites _ _ _ _ _) fun counts => .pure _
  unfold attachAlone
  rw [related]
  refine ((c.relatedAloneWrites _ _ _ _ _).answerBind (fun related => (Writes.mapAll related loads).bind counted) s).trans ?_
  rw [windowedAlone joins holds counts]
  unfold attachOne
  change Option.bind (Option.bind _ _) _ = Option.bind _ _
  rw [Option.bind_assoc]
  refine Option.bind_congr fun all fetched => Option.bind_congr fun cut _ => ?_
  refine ((Writes.mapAll cut loads).answerBind counted s).trans ?_
  rw [Writes.mapAnswer cut loads]
  refine Option.bind_congr fun kids _ => ?_
  refine ((c.countAloneWrites _ _ _ _ _).answerBind (fun counts => .pure _) s).trans ?_
  rw [countAnswer (.mk relation filter window fields _ nested) fetched]
  rfl

/-- What is left of an include once the related rows of every row are known. -/
def attachMatched (c : Context) (r : Relation) (target : Entity) (spec : Include) (parents : Counted) (matched : List (List Row)) :
    Action Store Counted :=
  match spec with
  | .mk _ _ window _ _ nested => do
    let windowed ← matched.mapM fun rows => (window.apply rows : Except Failure (List Row))
    let inner := windowed.flatten
    let loaded ←
      if inner.isEmpty then pure []
      else withCounts (nested.any countsRows) <$> c.attachAll target nested (inner.map fun row => (row, []))
    return (parents.zip ((Include.splitBy (windowed.map List.length) loaded).zip matched)).map fun x =>
      attachTo r spec x.1 x.2.2 x.2.1

theorem attachMatchedWrites {may : WriteStatement → Prop} (c : Context) (r : Relation) (target : Entity) (spec : Include)
    (parents : Counted) (matched : List (List Row)) : Writes may (c.attachMatched r target spec parents matched) := by
  cases spec with
  | mk relation filter window fields counted nested =>
    unfold attachMatched
    simp only [Step.mapLift]
    refine .liftBind fun windowed _ => ?_
    split
    · exact .bind (.pure _) fun loaded => .pure _
    · exact .bind (c.attachAllWrites _ nested _).map fun loaded => .pure _

theorem attachMatchedAnswer (apart : ∀ i ∈ nested, i.relation ∉ target.fields.map (·.name))
    (inner : ∀ i ∈ nested, c.AttachesAlone s target found i) {parents : Counted} {matched : List (List Row)}
    (shows : ∀ all ∈ matched, ∀ row ∈ all, target.Shows found row) :
    (c.attachMatched r target (.mk relation filter window fields counted nested) parents matched).answer s = (do
      let windowed ← matched.mapM fun all => (window.apply all).toOption
      let loaded ← windowed.flatten.mapM fun kid => (c.loadAlone target nested kid : Action Store Row).answer s
      return (parents.zip ((Include.splitBy (windowed.map List.length) loaded).zip matched)).map fun x =>
        attachTo r (.mk relation filter window fields counted nested) x.1 x.2.2 x.2.1) := by
  unfold attachMatched
  simp only [Step.mapLift]
  rw [liftAnswered, Options.exceptMap]
  refine Option.bind_congr fun windowed cut => ?_
  have shown : ∀ row ∈ windowed.flatten, target.Shows found row := by
    intro row mem
    obtain ⟨kept, listed, inside⟩ := List.mem_flatten.mp mem
    obtain ⟨all, among, applied⟩ := Options.mapItems cut kept listed
    cases windows : window.apply all with
    | error e =>
      rw [windows] at applied
      cases applied
    | ok rows =>
      rw [windows] at applied
      cases applied
      exact shows all among row (Window.applyInside windows row inside)
  split
  · rename_i empty
    rw [List.isEmpty_iff.mp empty]
    rfl
  · rw [((c.attachAllWrites target nested _).map).answerBind fun loaded => .pure _, attachedAlone apart inner shown]
    rfl

/-- What an include gives rows at once is what it gives each of them, if that is so of the includes nested in it. -/
theorem attachAnswer (related : c.registry.related e (.text relation) = .ok (r, target))
    (fetcher : c.registry.fetcher target.name = .ok .table) (joins : r.Joins e target f g window s.backend found)
    (apart : ∀ i ∈ nested, i.relation ∉ target.fields.map (·.name)) (inner : ∀ i ∈ nested, c.AttachesAlone s target found i)
    {parents : Counted} (holds : ∀ p ∈ parents, g.HoldsKey (Row.value p.1 r.own.field)) :
    (c.attach e (.mk relation filter window fields counted nested) parents : Action Store Counted).answer s =
      parents.mapM (c.attachOne r target (.mk relation filter window fields counted nested) s) := by
  have steps := Include.splitSteps parents
    (fun p => (c.fetchTable r target [Row.value p.1 r.own.field] filter window : Action Store (List Row)).answer s)
    (fun all => (window.apply all).toOption) (fun kid => (c.loadAlone target nested kid : Action Store Row).answer s)
    (attachTo r (.mk relation filter window fields counted nested))
  refine Eq.trans ?_ steps
  have held : ∀ v ∈ parents.map fun p => Row.value p.1 r.own.field, g.HoldsKey v := by
    intro v mem
    obtain ⟨p, inside, rfl⟩ := List.mem_map.mp mem
    exact holds p inside
  have table : (c.fetch r target (parents.map fun p => Row.value p.1 r.own.field) filter window : Action Store (List Row)) =
      c.fetchTable r target (parents.map fun p => Row.value p.1 r.own.field) filter window := by
    unfold fetch
    rw [fetcher]
    rfl
  have fetched : (c.attach e (.mk relation filter window fields counted nested) parents : Action Store Counted) = (do
      let matched ← (do
        let related ← c.fetchTable r target (parents.map fun p => Row.value p.1 r.own.field) filter window
        let keyed ← Include.keyedRows r.remote.field related
        (parents.map fun p => Row.value p.1 r.own.field).mapM fun v => (Include.rowsFor keyed v : Except Failure (List Row)))
      c.attachMatched r target (.mk relation filter window fields counted nested) parents matched) := by
    unfold attach
    rw [related]
    change (c.fetch r target (parents.map fun p => Row.value p.1 r.own.field) filter window >>= _) = _
    rw [table]
    simp only [bind_assoc]
    rfl
  have sharing : Writes (fun _ => False) (do
      let related ← c.fetchTable r target (parents.map fun p => Row.value p.1 r.own.field) filter window
      let keyed ← Include.keyedRows r.remote.field related
      (parents.map fun p => Row.value p.1 r.own.field).mapM fun v => (Include.rowsFor keyed v : Except Failure (List Row)) :
        Action Store (List (List Row))) := by
    simp only [Step.mapLift]
    exact .bind (c.fetchTableWrites _ _ _ _ _) fun related => .liftBind fun keyed _ => .lift _
  rw [fetched, sharing.answerBind fun matched => c.attachMatchedWrites _ _ _ _ _, sharedAlone joins held, List.mapM_map]
  refine Option.bind_congr fun matched answered => attachMatchedAnswer apart inner fun all listed => ?_
  obtain ⟨p, inside, brought⟩ := Options.mapItems answered all listed
  exact fetchShows joins (holds p inside) brought

end Level

/-- By induction on the include: every level is loaded at once as it is loaded for each row alone. -/
theorem attachesAlone {spec : Include} (fits : Include.Fits c s.backend e rows spec) (names : (e.fields.map (·.name)).Nodup)
    (columns : (e.fields.map (·.column)).Nodup) : c.AttachesAlone s e rows spec := by
  induction fits with
  | @mk e target rows found relation filter window fields counted nested r f g apart counts related fetcher joins keys inner ih =>
    intro parents shows
    have holds : ∀ p ∈ parents, g.HoldsKey (Row.value p.1 r.own.field) := by
      intro p mem
      obtain ⟨listed, named⟩ := Entity.fieldFound joins.own
      have held := (shows p mem).key names columns listed (joins.same ▸ joins.keyed) (joins.same ▸ joins.plain) keys
      rw [named] at held
      exact held.transfer joins.same joins.keyed
    have apart : ∀ i ∈ nested, i.relation ∉ target.fields.map (·.name) := fun i mem => (inner i mem).named
    rw [attachAnswer related fetcher joins apart (fun i mem => ih i mem joins.names joins.columns) holds]
    exact Options.mapCongr fun p mem => (attachAloneAnswer related joins counts (holds p mem)).symm

end Context

namespace Sample

def piecesIn (window : Window) (counted : Bool) (nested : List Include) : Include := .mk "pieces" [] window [] counted nested

def byWeight : Window := { Window.empty with order := [⟨.text "weight", .ascending, none⟩] }

/-- The pieces of the first two of some stored parts, loaded together. -/
def piecesTogether (rows : List Row) (w : Window) : Option (List Row × Session Store) :=
  ((Context.mk partsRegistry .pooled).loadIncludes part [piecesIn w false []] ((rows.take 2).map part.view) :
    Action Store (List Row)).outcome (partsSession rows)

/-- The pieces of the first two of some stored parts, loaded for each of them alone. -/
def piecesAlone (rows : List Row) (w : Window) : Option (List Row × Session Store) :=
  (((rows.take 2).map part.view).mapM fun row =>
    ((Context.mk partsRegistry .pooled).loadAlone part [piecesIn w false []] row : Action Store Row)).outcome (partsSession rows)

def pieceIds (row : Row) : List Int :=
  match Row.value row "pieces" with
  | .array kids => kids.filterMap fun kid => Window.integer? (kid.member "id")
  | _ => []

/-- Parts of which one has a weight that is no number. -/
def unweighed : List Row :=
  [partRow 1 wheel .null (.int 1) .null, partRow 2 frame .null (.int 1) .null,
    partRow 3 "00000000-0000-4000-8000-000000000003" (.text wheel) (.int 2) .null,
    partRow 4 "00000000-0000-4000-8000-000000000004" (.text frame) (.int 0) .null,
    partRow 5 "00000000-0000-4000-8000-000000000005" (.text wheel) (.number .nan) .null,
    partRow 6 "00000000-0000-4000-8000-000000000006" (.text wheel) (.int 1) .null]

/-- Parts of which one has its code in capitals. -/
def capitals : List Row :=
  [partRow 1 "3B241101-E2BB-4255-8CAF-4136C566A962" .null (.int 1) .null, partRow 2 wheel .null (.int 1) .null,
    partRow 3 frame (.text wheel) (.int 1) .null]

/-- Parts of which one has a date that cannot be read. -/
def undated : List Row :=
  [partRow 1 wheel .null (.int 1) .null, partRow 2 frame .null (.int 1) .null,
    partRow 3 "00000000-0000-4000-8000-000000000003" (.text wheel) (.int 2) (.text "soon")]

/-- Parts whose codes are written as codes are, with weights that are numbers. -/
def assembled : List Row :=
  [partRow 1 wheel .null (.int 1) .null, partRow 2 frame (.text wheel) (.int 3) .null,
    partRow 3 "00000000-0000-4000-8000-000000000003" (.text wheel) (.int 2) .null,
    partRow 4 "00000000-0000-4000-8000-000000000004" (.text frame) (.int 5) .null]

theorem uuidKey {f : Field} {code : String} (type : f.type = .uuid) (isUuid : Uuid.isUuid code) (lower : Uuid.normalize code = code)
    (joined : Text.isJoined code.toList) : f.HoldsKey (.text code) := by
  refine .inr ⟨?_, fun s same => by cases same; exact joined⟩
  unfold Field.encode Field.encodePresent
  rw [type]
  change (if Uuid.isUuid code then Except.ok (Value.text (Uuid.normalize code)) else _) = _
  rw [if_pos isUuid, lower]

theorem piecesFit {w : Window} {counted : Bool} {nested : List Include} (counts : w.Counts)
    (orders : Context.Orders part w assembled)
    (inner : ∀ i ∈ nested, Include.Fits ⟨partsRegistry, .pooled⟩ (partsSession assembled).backend part assembled i) :
    Include.Fits ⟨partsRegistry, .pooled⟩ (partsSession assembled).backend part assembled (piecesIn w counted nested) := by
  have reads : ∀ row ∈ assembled, ∃ decoded, part.read row = .ok decoded := by
    intro row mem
    simp only [assembled, List.mem_cons, List.not_mem_nil, or_false] at mem
    rcases mem with rfl | rfl | rfl | rfl <;> exact ⟨_, rfl⟩
  have codes : ∀ row ∈ assembled, codeField.HoldsKey (Row.value row "code") ∧ wholeField.HoldsKey (Row.value row "whole_code") := by
    have written : ∀ code ∈ [wheel, frame, "00000000-0000-4000-8000-000000000003", "00000000-0000-4000-8000-000000000004"],
        Uuid.isUuid code ∧ Uuid.normalize code = code ∧ Text.isJoined code.toList := by decide +kernel
    have holds : ∀ f : Field, f.type = .uuid → ∀ code ∈ [wheel, frame, "00000000-0000-4000-8000-000000000003",
        "00000000-0000-4000-8000-000000000004"], f.HoldsKey (.text code) := by
      intro f type code mem
      obtain ⟨isUuid, lower, joined⟩ := written code mem
      exact uuidKey type isUuid lower joined
    intro row mem
    simp only [assembled, List.mem_cons, List.not_mem_nil, or_false] at mem
    rcases mem with rfl | rfl | rfl | rfl
    · exact ⟨holds codeField rfl wheel (by simp), .inl rfl⟩
    · exact ⟨holds codeField rfl frame (by simp), holds wholeField rfl wheel (by simp)⟩
    · exact ⟨holds codeField rfl _ (by simp), holds wholeField rfl wheel (by simp)⟩
    · exact ⟨holds codeField rfl _ (by simp), holds wholeField rfl frame (by simp)⟩
  have joins : pieces.Joins part part codeField wholeField w (partsSession assembled).backend assembled :=
    { own := rfl, remote := rfl, same := rfl, keyed := rfl, plain := by decide, names := by decide, columns := by decide
      readable := ⟨rfl, rfl, reads, by decide⟩
      keys := fun row mem => (codes row mem).2
      orders }
  exact .mk (by decide) counts (by rfl) (by rfl) joins (fun row mem => (codes row mem).1) inner

end Sample

end EntityQuery
