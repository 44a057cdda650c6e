import FleetAtlas.Proofs.Json.RoundTrip
import FleetAtlas.Proofs.Storage.Export
import FleetAtlas.Proofs.Storage.Frame

/-!
# Exports are read back

* `Record.Plain`: the properties of a record are plain;
* `Record.readWithin?`, `Record.readAll?`, `Record.read?`: readers of lines that go to a given depth, to any depth, and as deep
  as readers do; `Record.readWithin?_write`: a plain record is read back from its line exactly if the reader goes as deep as
  it, so `Record.readAll?_write`; `Record.depth_le_iff`: how deep its properties are then;
* `Export.linesOf_join`: the lines of a text are found again;
* `Export.Output`, `Export.writeFrom`: an export as it goes on, line by line; `writeFrom_eq`: it writes the text of the
  gathered records, and counts them;
* `Store.ShowsPlain`: all that a store shows is plain (`ShowsPlain.after`);
* `Store.export_read_back`: **the text of an export, read line by line, is the records of the store with their prefixes**,
  by every reader that goes deep enough.
-/

namespace FleetAtlas

/-! ### Lines of records -/

namespace Record

/-- The properties are plain values. -/
def Plain (r : Record) : Prop := ∀ j ∈ r.properties.values, j.Plain

instance (r : Record) : Decidable r.Plain := inferInstanceAs (Decidable (∀ j ∈ r.properties.values, j.Plain))

/-- The record of a line, by a reader that goes into no more than `levels` lists and objects around each other. -/
def readWithin? (levels : Nat) (line : String) : Option Record := (Json.readWithin? levels line).bind ofJson?

/-- The record of a line, however deep it is: its text is longer than that. -/
def readAll? (line : String) : Option Record := readWithin? line.length line

/-- The record of a line, by a reader with the limit of nesting that readers have. -/
def read? (line : String) : Option Record := (Json.read? line).bind ofJson?

/-- How many lists and objects are around each other in the line of a record. -/
def depth (r : Record) : Nat := r.toJson.depth

/-- The fields of a record in JSON. -/
def fields (r : Record) : List (String × Json) :=
  [("uid", .str r.uid), ("type", .str r.kind), ("properties", .ofDict r.properties)]
    ++ if r.links.isEmpty then [] else [("links", linksJson r.links)]

variable {r : Record}

theorem plainFields_fields (h : r.Plain) : Json.PlainFields r.fields := by
  have hproperties : (Json.ofDict r.properties).Plain := by
    refine ⟨r.properties.sorted, Json.plainFields_iff.mpr fun e he => h e.2 ?_⟩
    exact List.mem_map_of_mem he
  have hlinks : (linksJson r.links).Plain := by
    refine ⟨(r.links.mapValues _).sorted, Json.plainFields_iff.mpr fun e he => ?_⟩
    obtain ⟨link, -, rfl⟩ := List.mem_map.mp he
    trivial
  unfold fields
  split
  · exact ⟨trivial, trivial, hproperties, trivial⟩
  · exact ⟨trivial, trivial, hproperties, hlinks, trivial⟩

theorem nodup_fields (r : Record) : (r.fields.map Prod.fst).Nodup := by
  have hnames : r.fields.map Prod.fst = ["uid", "type", "properties"] ++ if r.links.isEmpty then [] else ["links"] := by
    unfold fields
    split <;> rfl
  rw [hnames]
  split <;> decide

theorem defaulted?_links (r : Record) :
    Json.defaulted? r.fields "links" ∅ (Json.entries? Json.str?) = some r.links := by
  cases hlinks : r.links.isEmpty with
  | true =>
    have hnone : Json.lookup "links" r.fields = none := by simp [fields, hlinks, Json.lookup]
    rw [Json.defaulted?, hnone, Dict.isEmpty_iff.mp hlinks]
  | false =>
    have hsome : Json.lookup "links" r.fields = some (linksJson r.links) := by simp [fields, hlinks, Json.lookup]
    rw [Json.defaulted?, hsome]
    exact entries?_linksJson r.links

theorem ofJson?_fields (r : Record) : ofJson? (.obj r.fields) = some r := by
  have hproperties : Json.defaulted? r.fields "properties" ∅ Json.dict? = some r.properties :=
    congrArg some (Dict.ofList_toList r.properties)
  show (do
    let properties ← Json.defaulted? r.fields "properties" ∅ Json.dict?
    let links ← Json.defaulted? r.fields "links" ∅ (Json.entries? Json.str?)
    return ({ uid := r.uid, kind := r.kind, properties, links } : Record)) = some r
  rw [hproperties, r.defaulted?_links]
  rfl

theorem ofJson?_congr {a b : List (String × Json)} (h : ∀ name, Json.lookup name a = Json.lookup name b) :
    ofJson? (.obj a) = ofJson? (.obj b) := by
  simp only [ofJson?, Json.fieldsOf?, Json.required?, Json.defaulted?, Option.bind_eq_bind, Option.bind_some, h]

/-- The reader puts the fields of a record in order. -/
theorem ofJson?_ofList (r : Record) : ofJson? (.obj (Dict.ofList r.fields).toList) = some r := by
  have hlookup : ∀ name, Json.lookup name (Dict.ofList r.fields).toList = Json.lookup name r.fields := fun name => by
    rw [Json.lookup_toList, Json.get?_ofList r.nodup_fields]
  rw [ofJson?_congr hlookup, ofJson?_fields]

/-- **A plain record is read back from its line**, exactly if it is no deeper than the reader goes. -/
theorem readWithin?_write (h : r.Plain) (levels : Nat) :
    readWithin? levels r.toJson.write = if r.depth ≤ levels then some r else none := by
  have hread : Json.readWithin? levels r.toJson.write =
      if r.depth ≤ levels then some (.obj (Dict.ofList r.fields).toList) else none :=
    Json.readWithin?_write_obj (plainFields_fields h) levels
  rw [readWithin?, hread]
  split
  · exact ofJson?_ofList r
  · rfl

/-- **A plain record is read back from its line** by a reader that goes to any depth. -/
theorem readAll?_write (h : r.Plain) : readAll? r.toJson.write = some r := by
  have hlength : r.toJson.write.length = r.toJson.writeChars.length := String.length_ofList
  have hdepth : r.depth ≤ r.toJson.writeChars.length := r.toJson.depth_le_length
  rw [readAll?, readWithin?_write h, hlength, if_pos hdepth]

/-- The properties are two levels down, and the links no deeper than they. -/
theorem depth_eq (r : Record) : r.depth = Json.depthFields r.properties.toList + 2 := by
  have hlinks : (linksJson r.links).depth = 1 := by
    have hnone : Json.depthFields (r.links.mapValues fun _ uid => Json.str uid).toList ≤ 0 :=
      Json.depthFields_le_iff.mpr fun e he => by
        obtain ⟨link, -, rfl⟩ := List.mem_map.mp he
        exact Nat.le_refl 0
    exact congrArg (· + 1) (Nat.le_zero.mp hnone)
  have hfields : r.depth = Json.depthFields r.fields + 1 := rfl
  rw [hfields, fields]
  split <;> simp [Json.depthFields, Json.depth, Json.ofDict, hlinks]

/-- **How deep the properties may be** in a record that is read. -/
theorem depth_le_iff {n : Nat} : r.depth ≤ n + 2 ↔ ∀ j ∈ r.properties.values, j.depth ≤ n := by
  rw [depth_eq, Nat.add_le_add_iff_right, Json.depthFields_le_iff]
  show _ ↔ ∀ j ∈ r.properties.toList.map Prod.snd, j.depth ≤ n
  rw [List.forall_mem_map]

theorem newline_notMem_line (h : r.Plain) : '\n' ∉ r.toJson.write.toList := by
  have hfields := Json.newline_notMem_writeFields r.fields (plainFields_fields h)
  have htext : r.toJson.write.toList = '{' :: Json.writeFields r.fields ++ ['}'] := String.toList_ofList
  rw [htext]
  simp [hfields]

end Record

/-! ### The text of an export -/

namespace Export

/-- The lines of a text, each of them up to a line feed. -/
def linesOf (text : String) : List String := (text.toList.splitOn '\n').dropLast.map String.ofList

/-- **The lines of a text are found again**, as long as there is no line feed in them. -/
theorem linesOf_join {ls : List String} (h : ∀ l ∈ ls, '\n' ∉ l.toList) :
    linesOf (String.join (ls.map (· ++ "\n"))) = ls := by
  have hsplit : (String.join (ls.map (· ++ "\n"))).toList.splitOn '\n' = ls.map String.toList ++ [[]] := by
    induction ls with
    | nil => rfl
    | cons l ls ih =>
      have htext : (String.join ((l :: ls).map (· ++ "\n"))).toList =
          l.toList ++ '\n' :: (String.join (ls.map (· ++ "\n"))).toList := by
        simp [String.toList_append]
      rw [htext, List.splitOn_append_cons_self_of_not_mem (h l List.mem_cons_self),
        ih fun l hl => h l (.tail _ hl)]
      rfl
  rw [linesOf, hsplit, List.dropLast_concat, List.map_map]
  exact (List.map_congr_left fun _ _ => String.ofList_toList).trans (List.map_id ls)

/-- What an export has written: the number of its lines, and their text. -/
structure Output where
  written : Nat
  text : String

/-- One more line. -/
def Output.line (o : Output) (r : Record) : Output := ⟨o.written + 1, o.text ++ r.toJson.write ++ "\n"⟩

/-- Writes the records of the families, line by line. -/
def writeFrom (list : Family → Except StorageError (List Record)) (o : Output) : List Family → Except StorageError Output
  | [] => .ok o
  | f :: rest => do
    let records ← list f
    writeFrom list (records.foldl (fun o r => o.line (prefixed f r)) o) rest

theorem text_append (records others : List Record) : text (records ++ others) = text records ++ text others := by
  simp [text, lines]

theorem foldl_line (f : Family) (records : List Record) (o : Output) :
    records.foldl (fun o r => o.line (prefixed f r)) o =
      ⟨o.written + records.length, o.text ++ text (records.map (prefixed f))⟩ := by
  induction records generalizing o with
  | nil => simp [text, lines]
  | cons r records ih =>
    rw [List.foldl_cons, ih]
    simp [Output.line, text, lines, String.append_assoc]
    omega

/-- **An export writes the text of the gathered records**, and counts them. -/
theorem writeFrom_eq (list : Family → Except StorageError (List Record)) (o : Output) (fs : List Family) :
    writeFrom list o fs =
      (gatherFrom list fs).map fun records => ⟨o.written + records.length, o.text ++ text records⟩ := by
  induction fs generalizing o with
  | nil =>
    show Except.ok o = .ok ⟨o.written + 0, o.text ++ text []⟩
    rw [Nat.add_zero]
    simp [text, lines]
  | cons f fs ih =>
    rw [writeFrom, gatherFrom]
    cases hlist : list f with
    | error e => rfl
    | ok records =>
      show writeFrom list (records.foldl (fun o r => o.line (prefixed f r)) o) fs =
        (gatherFrom list fs >>= fun others => .ok (records.map (prefixed f) ++ others)).map _
      rw [ih, foldl_line]
      cases gatherFrom list fs with
      | error e => rfl
      | ok others =>
        show Except.ok _ = Except.ok _
        simp only [List.length_append, List.length_map, text_append, String.append_assoc, Nat.add_assoc]

theorem plain_prefixed {f : Family} {r : Record} (h : r.Plain) : (prefixed f r).Plain := h

/-- **What the prefixes change**: the uid, and the targets of the links that the family knows. -/
theorem prefixed_cases (f : Family) (r : Record) :
    (prefixed f r).uid = (if f = .event then r.kind else f.label) ++ ":" ++ r.uid ∧
    (prefixed f r).kind = r.kind ∧ (prefixed f r).properties = r.properties ∧
    ∀ name, (prefixed f r).links.get? name = (r.links.get? name).map fun uid =>
      (f.link? name).elim uid fun l => l.target.label ++ ":" ++ uid := by
  refine ⟨rfl, rfl, rfl, fun name => ?_⟩
  unfold prefixed
  rw [Dict.get?_mapValues]
  cases f.link? name <;> rfl

end Export

/-! ### What stores show -/

namespace Graph

/-- What is stored is shown with the properties that are there. -/
theorem properties_get_set {g g' : Graph} {f : Family} {r r' : Record} (h : g.set f r = .ok g')
    (hget : g'.get f r.uid = some r') : r'.properties = r.nonNull := by
  obtain ⟨edges, extra, -, -, rfl⟩ := set_eq_ok_iff.mp h
  unfold write get at hget
  rw [find?_put, if_pos ⟨rfl, rfl⟩] at hget
  exact (recordOf?_eq_some hget).2

end Graph

namespace Store

/-- **All that the store shows is plain.** -/
def ShowsPlain (s : Store) : Prop := ∀ f uid r, s.get f uid = .ok (some r) → r.Plain

variable {s s' : Store} {f : Family} {r : Record}

theorem showsPlain_drop (s : Store) : s.drop.ShowsPlain := by
  intro f uid r hget
  cases s with
  | documents d => exact nomatch hget
  | graph g => exact nomatch hget

theorem plain_of_get_set (hr : r.Plain) (hs : s.set f r = .ok s') {r' : Record}
    (hget : s'.get f r.uid = .ok (some r')) : r'.Plain := by
  cases s with
  | documents d =>
    obtain rfl : documents (d.set f r) = s' := Except.ok.inj hs
    have hsame := (d.get_set f f r r.uid).symm.trans hget
    rw [if_pos ⟨rfl, rfl⟩] at hsame
    obtain rfl : r = r' := Option.some.inj (Except.ok.inj hsame)
    exact hr
  | graph g =>
    obtain ⟨g', hg, rfl⟩ := set_graph_eq_ok hs
    have hproperties := Graph.properties_get_set hg (Except.ok.inj hget)
    intro j hj
    rw [hproperties, Dict.mem_values_iff] at hj
    obtain ⟨name, hname⟩ := hj
    rw [Record.nonNull, Dict.get?_filter, Option.filter_eq_some_iff] at hname
    exact hr j (Dict.mem_values_iff.mpr ⟨name, hname.1⟩)

theorem ShowsPlain.set (h : s.ShowsPlain) (hr : r.Plain) (hs : s.set f r = .ok s') : s'.ShowsPlain := by
  intro g uid r' hget
  by_cases hsame : g = f ∧ uid = r.uid
  · obtain ⟨rfl, rfl⟩ := hsame
    exact plain_of_get_set hr hs hget
  · rw [get_set_of_ne hs hsame] at hget
    exact h g uid r' hget

/-- What is to be stored is plain. -/
def Request.Plain : Request → Prop
  | .set _ r => r.Plain
  | .drop => True

instance : (request : Request) → Decidable request.Plain
  | .set _ r => inferInstanceAs (Decidable r.Plain)
  | .drop => inferInstanceAs (Decidable True)

theorem ShowsPlain.after (h : s.ShowsPlain) {requests : List Request} (hplain : ∀ request ∈ requests, request.Plain) :
    (s.after requests).ShowsPlain := by
  induction requests generalizing s with
  | nil => exact h
  | cons request requests ih =>
    refine ih ?_ fun request hr => hplain request (.tail _ hr)
    have hrequest := hplain request List.mem_cons_self
    cases request with
    | drop => exact s.showsPlain_drop
    | set f r =>
      cases hs : s.set f r with
      | error e => rwa [perform_of_error hs]
      | ok s' =>
        rw [perform_of_ok hs]
        exact h.set hrequest hs

end Store

/-! ### Exports -/

namespace Export

variable {records : List Record}

/-- Lines are read back if each of them is. -/
theorem mapM_lines {read : String → Option Record} (hread : ∀ r ∈ records, read r.toJson.write = some r) :
    (lines records).mapM read = some records := by
  induction records with
  | nil => rfl
  | cons r records ih =>
    show (r.toJson.write :: lines records).mapM read = some (r :: records)
    rw [List.mapM_cons, hread r List.mem_cons_self, ih fun q hq => hread q (.tail _ hq)]
    rfl

variable (h : ∀ r ∈ records, r.Plain)

include h

theorem newline_notMem_lines : ∀ line ∈ lines records, '\n' ∉ line.toList := by
  intro line hline
  obtain ⟨r, hr, rfl⟩ := List.mem_map.mp hline
  exact Record.newline_notMem_line (h r hr)

theorem map_readWithin?_lines (levels : Nat) : (lines records).map (Record.readWithin? levels) =
    records.map fun r => if r.depth ≤ levels then some r else none := by
  rw [lines, List.map_map]
  refine List.map_congr_left fun r hr => ?_
  rw [Function.comp_apply, Record.readWithin?_write (h r hr)]

theorem mapM_readAll?_lines : (lines records).mapM Record.readAll? = some records :=
  mapM_lines fun r hr => Record.readAll?_write (h r hr)

theorem mapM_read?_lines (hdepth : ∀ r ∈ records, r.depth ≤ Json.mostLevels) :
    (lines records).mapM Record.read? = some records := by
  refine mapM_lines fun r hr => ?_
  show Record.readWithin? Json.mostLevels _ = _
  rw [Record.readWithin?_write (h r hr), if_pos (hdepth r hr)]

end Export

/-- **The text of an export is read back.**  Whatever plain records a store was asked to keep, an export writes as many lines
as it counts, each ended by a line feed and without any other; and read one by one, the lines are the listed records, family
by family and by uid, with the name of the kind or the family in front of each uid and of each known target.  A reader that
goes to a limited depth reads the line of exactly the records that are no deeper, so the usual reader gets all of them if no
property is deeper than 125 lists and objects. -/
theorem Store.export_read_back (s : Store) {requests : List Request} (h : ∀ request ∈ requests, request.Plain) :
    ∃ (listed : Family → List Record) (lines : List String),
      (∀ f, (s.drop.after requests).list f .all = .ok (listed f) ∧
        (listed f).Pairwise fun r q => r.uid < q.uid) ∧
      Export.writeFrom (fun f => (s.drop.after requests).list f .all) ⟨0, ""⟩ Family.all =
        .ok ⟨lines.length, String.join (lines.map (· ++ "\n"))⟩ ∧
      (s.drop.after requests).exported.map Export.text = .ok (String.join (lines.map (· ++ "\n"))) ∧
      (∀ line ∈ lines, '\n' ∉ line.toList) ∧
      Export.linesOf (String.join (lines.map (· ++ "\n"))) = lines ∧
      lines.mapM Record.readAll? = some (Family.all.flatMap fun f => (listed f).map (Export.prefixed f)) ∧
      (∀ levels, lines.map (Record.readWithin? levels) =
        (Family.all.flatMap fun f => (listed f).map (Export.prefixed f)).map fun r =>
          if r.depth ≤ levels then some r else none) ∧
      ((∀ f, ∀ r ∈ listed f, ∀ j ∈ r.properties.values, j.depth ≤ 125) →
        lines.mapM Record.read? = some (Family.all.flatMap fun f => (listed f).map (Export.prefixed f))) ∧
      ∀ f r, (Export.prefixed f r).uid = (if f = .event then r.kind else f.label) ++ ":" ++ r.uid ∧
        (Export.prefixed f r).kind = r.kind ∧ (Export.prefixed f r).properties = r.properties ∧
        ∀ name, (Export.prefixed f r).links.get? name = (r.links.get? name).map fun uid =>
          (f.link? name).elim uid fun l => l.target.label ++ ":" ++ uid := by
  have hfiled : (s.drop.after requests).Filed := s.filed_drop.after requests
  have hshows : (s.drop.after requests).ShowsPlain := s.showsPlain_drop.after h
  choose listed hlist hmem using fun f => hfiled.exists_list f .all
  have hgather := Export.gatherFrom_eq_ok hlist Family.all
  have hexported : ∀ r ∈ Family.all.flatMap fun f => (listed f).map (Export.prefixed f),
      ∃ f, ∃ q ∈ listed f, r = Export.prefixed f q := by
    intro r hr
    obtain ⟨f, -, hr⟩ := List.mem_flatMap.mp hr
    obtain ⟨q, hq, rfl⟩ := List.mem_map.mp hr
    exact ⟨f, q, hq, rfl⟩
  have hplain : ∀ r ∈ Family.all.flatMap fun f => (listed f).map (Export.prefixed f), r.Plain := by
    intro r hr
    obtain ⟨f, q, hq, rfl⟩ := hexported r hr
    exact Export.plain_prefixed (hshows f q.uid q ((hmem f q).mp hq).1)
  refine ⟨listed, _, fun f => ⟨hlist f, hfiled.sorted_list (hlist f)⟩, ?written, ?text,
    Export.newline_notMem_lines hplain, Export.linesOf_join (Export.newline_notMem_lines hplain),
    Export.mapM_readAll?_lines hplain, Export.map_readWithin?_lines hplain,
    fun hdepth => Export.mapM_read?_lines hplain fun r hr => ?deep, Export.prefixed_cases⟩
  case written =>
    rw [Export.writeFrom_eq, hgather]
    show Except.ok (Export.Output.mk (0 + _) ("" ++ Export.text _)) = _
    rw [Nat.zero_add, String.empty_append, Export.lines, List.length_map]
    rfl
  case text =>
    rw [exported, Export.gather, hgather]
    rfl
  case deep =>
    obtain ⟨f, q, hq, rfl⟩ := hexported r hr
    exact Record.depth_le_iff.mpr (hdepth f q hq)

/-- Lists around each other. -/
def nestedLists : Nat → Json
  | 0 => .arr []
  | n + 1 => .arr [nestedLists n]

/-- A customer whose name takes three lines, an application of theirs with nested values, a customer with lists that nest
deeper than a reader goes, and a record that a graph refuses. -/
def quotations : List Store.Request :=
  [.set .application ⟨"t1/a1", "Application",
      .ofList [("name", .str "\t\u0007"), ("tags", .arr [.int (-3), .null, .obj [("a", .bool true), ("b", .arr [])]])],
      .ofList [("ownedBy", "t1")]⟩,
    .set .customer ⟨"t1", "Customer", .ofList [("name", .str "say\n\"hi\"\nor \\n")], ∅⟩,
    .set .customer ⟨"t2", "Customer", .ofList [("name", nestedLists 125)], ∅⟩,
    .set .customer ⟨"t3", "no label", ∅, ∅⟩]

theorem plain_quotations : ∀ request ∈ quotations, request.Plain := by decide +kernel

/-- The export of a graph has a line for each of the three records, and two of them are read back. -/
theorem export_quotations : (∀ request ∈ quotations, request.Plain) ∧
    ∃ lines : List String, (∀ line ∈ lines, '\n' ∉ line.toList) ∧
      ((Store.graph .empty).drop.after quotations).exported.map Export.text = .ok (String.join (lines.map (· ++ "\n"))) ∧
      lines.map (fun line => (Record.read? line).map Record.uid) =
        [some "Customer:t1", none, some "Application:t1/a1"] := by
  obtain ⟨listed, lines, hlist, -, htext, hfeeds, -, -, hread, -⟩ :=
    (Store.graph .empty).export_read_back plain_quotations
  have hgather := Export.gatherFrom_eq_ok (fun f => (hlist f).1) Family.all
  have huids : ((Store.graph .empty).drop.after quotations).exported.map
      (List.map fun r => (if r.depth ≤ Json.mostLevels then some r else none).map Record.uid) =
      .ok [some "Customer:t1", none, some "Application:t1/a1"] := by decide +kernel
  rw [Store.exported, Export.gather, hgather] at huids
  refine ⟨plain_quotations, lines, hfeeds, htext, ?_⟩
  have hlines := congrArg (List.map (Option.map Record.uid)) (hread Json.mostLevels)
  rw [List.map_map, List.map_map] at hlines
  exact hlines.trans (Except.ok.inj huids)

end FleetAtlas
