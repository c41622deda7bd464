import XmlShape.Command.Rendering
import XmlShape.Proofs.Schema.Absorption
import XmlShape.Proofs.Schema.Statistics

/-!
# Listings of fields

A listing of fields is made by itself, in another order than an analysis: the naming rules are read
before the document. It accepts what the analysis accepts and shows the fields that this has
found; only the fault that is reported first may be another. This does not depend on what reads the
patterns of the rules. A listing of one element is made from its first occurrence, and it is the
part of the whole listing exactly if no other occurrence adds to what the first one shows.
-/

namespace XmlShape
namespace Command

open Report Schema

section Listing

variable {reader : Regex.Reader}

/-!
# Faults
-/

theorem renderFields_of_build_error {config : Config} {pattern : String}
    (h : config.naming.build reader = .error pattern) (element? : Option String) (text : String) :
    renderFields config element? text reader = .error (.analysis (.namingRule pattern)) := by
  unfold renderFields
  rw [h]
  rfl

theorem renderFields_of_read_error {config : Config} {naming : Naming.Convention} {text : String}
    {fault : DocumentFault} (hbuild : config.naming.build reader = .ok naming)
    (hread : Document.read config.reading text = .error fault) (element? : Option String) :
    renderFields config element? text reader = .error (.analysis (.document fault)) := by
  unfold renderFields scanText
  rw [hbuild, hread]
  rfl

/-!
# Listings
-/

theorem renderFields_all {config : Config} {naming : Naming.Convention} {text : String}
    {root : Element} (hbuild : config.naming.build reader = .ok naming)
    (hread : Document.read config.reading text = .ok root) :
    renderFields config none text reader =
      .ok (fieldSections (resolveAll (scan config.scanning root) naming)) := by
  unfold renderFields scanText
  rw [hbuild, hread]
  rfl

theorem renderFields_one {config : Config} {naming : Naming.Convention} {text : String}
    {root : Element} (hbuild : config.naming.build reader = .ok naming)
    (hread : Document.read config.reading text = .ok root) {name : String} {first : Record}
    (hfirst : (scan config.scanning root).firstRecord? name = some first) :
    renderFields config (some name) text reader =
      .ok (fieldSection name (resolve (scan config.scanning root) naming first)) := by
  have hscan : scanText config text = .ok (scan config.scanning root) := by
    unfold scanText
    rw [hread]
    rfl
  unfold renderFields
  rw [hbuild, hscan]
  simp only [Except.mapError, bind, Except.bind, hfirst]

theorem parts_of_renderFields_eq_ok {config : Config} {element? : Option String}
    {text listing : String} (h : renderFields config element? text reader = .ok listing) :
    ∃ naming root, config.naming.build reader = .ok naming ∧
      Document.read config.reading text = .ok root := by
  cases hbuild : config.naming.build reader with
  | error pattern =>
      rw [renderFields_of_build_error hbuild] at h
      cases h
  | ok naming =>
      cases hread : Document.read config.reading text with
      | error fault =>
          rw [renderFields_of_read_error hbuild hread] at h
          cases h
      | ok root =>
          exact ⟨naming, root, rfl, rfl⟩

/-!
# The listing and the analysis
-/

theorem convention_eq (config : Config) :
    ({ config, reader } : Analyzer).convention =
      (config.naming.build reader).mapError .namingRule :=
  rfl

theorem analyze_of_build {config : Config} {naming : Naming.Convention} {text : String}
    {root : Element} (hbuild : config.naming.build reader = .ok naming)
    (hread : Document.read config.reading text = .ok root) :
    ({ config, reader } : Analyzer).analyze text =
      .ok (analyzeModel naming (scan config.scanning root)) := by
  rw [Analyzer.analyze_of_read (a := { config, reader }) hread, convention_eq, hbuild]
  rfl

theorem analyze_of_build_error {config : Config} {text : String} {root : Element}
    {pattern : String} (hread : Document.read config.reading text = .ok root)
    (hbuild : config.naming.build reader = .error pattern) :
    ({ config, reader } : Analyzer).analyze text = .error (.namingRule pattern) := by
  rw [Analyzer.analyze_of_read (a := { config, reader }) hread, convention_eq, hbuild]
  rfl

theorem parts_of_analyze_eq_ok {config : Config} {text : String} {analysis : Analysis}
    (h : ({ config, reader } : Analyzer).analyze text = .ok analysis) :
    ∃ naming root, config.naming.build reader = .ok naming ∧
      Document.read config.reading text = .ok root := by
  cases hread : Document.read config.reading text with
  | error fault =>
      rw [Analyzer.analyze_of_read_error (a := { config, reader }) hread] at h
      cases h
  | ok root =>
      cases hbuild : config.naming.build reader with
      | error pattern =>
          rw [analyze_of_build_error hread hbuild] at h
          cases h
      | ok naming =>
          exact ⟨naming, root, rfl, rfl⟩

/-- A listing of all fields and an analysis accept the same texts and show the same fields, in the
order of the names. With one fault both report it, and with one on either side the analysis reports
that of the document and the listing that of the rules. -/
theorem renderFields_analyze (config : Config) (text : String) (reader : Regex.Reader) :
    ((∃ listing, renderFields config none text reader = .ok listing) ↔
      ∃ analysis, ({ config, reader } : Analyzer).analyze text = .ok analysis) ∧
    (∀ analysis, ({ config, reader } : Analyzer).analyze text = .ok analysis →
      analysis.fields.keys.Pairwise (· < ·) ∧
      renderFields config none text reader = .ok (String.join (analysis.fields.toList.map
        fun (name, fields) => name ++ "\n" ++ fieldLines 2 fields))) ∧
    (∀ naming root, config.naming.build reader = .ok naming →
      Document.read config.reading text = .ok root →
        ∃ analysis, ({ config, reader } : Analyzer).analyze text = .ok analysis) ∧
    (∀ naming fault, config.naming.build reader = .ok naming →
      Document.read config.reading text = .error fault →
        ({ config, reader } : Analyzer).analyze text = .error (.document fault) ∧
        renderFields config none text reader = .error (.analysis (.document fault))) ∧
    (∀ pattern root, config.naming.build reader = .error pattern →
      Document.read config.reading text = .ok root →
        ({ config, reader } : Analyzer).analyze text = .error (.namingRule pattern) ∧
        renderFields config none text reader = .error (.analysis (.namingRule pattern))) ∧
    (∀ pattern fault, config.naming.build reader = .error pattern →
      Document.read config.reading text = .error fault →
        ({ config, reader } : Analyzer).analyze text = .error (.document fault) ∧
        renderFields config none text reader = .error (.analysis (.namingRule pattern))) := by
  refine ⟨⟨?_, ?_⟩, ?_, ?_, ?_, ?_, ?_⟩
  · rintro ⟨listing, h⟩
    obtain ⟨naming, root, hbuild, hread⟩ := parts_of_renderFields_eq_ok h
    exact ⟨_, analyze_of_build hbuild hread⟩
  · rintro ⟨analysis, h⟩
    obtain ⟨naming, root, hbuild, hread⟩ := parts_of_analyze_eq_ok h
    exact ⟨_, renderFields_all hbuild hread⟩
  · intro analysis h
    obtain ⟨naming, root, hbuild, hread⟩ := parts_of_analyze_eq_ok h
    rw [analyze_of_build hbuild hread] at h
    cases h
    exact ⟨NameMap.sorted _, renderFields_all hbuild hread⟩
  · intro naming root hbuild hread
    exact ⟨_, analyze_of_build hbuild hread⟩
  · intro naming fault hbuild hread
    exact ⟨Analyzer.analyze_of_read_error hread, renderFields_of_read_error hbuild hread none⟩
  · intro pattern root hbuild hread
    exact ⟨analyze_of_build_error hread hbuild, renderFields_of_build_error hbuild none text⟩
  · intro pattern fault hbuild hread
    exact ⟨Analyzer.analyze_of_read_error hread, renderFields_of_build_error hbuild none text⟩

/-!
# One element
-/

/-- Every name in a listing can be listed by itself, with the fields of its first occurrence. These
are all of its fields in the listing exactly if no other occurrence adds to them. -/
theorem renderFields_element {config : Config} {text listing : String}
    (h : renderFields config none text reader = .ok listing) :
    ∃ naming root, config.naming.build reader = .ok naming ∧
      Document.read config.reading text = .ok root ∧
      listing = fieldSections (resolveAll (scan config.scanning root) naming) ∧
      ∀ name fields, (resolveAll (scan config.scanning root) naming).get? name = some fields →
        ∃ first, (scan config.scanning root).firstRecord? name = some first ∧
          renderFields config (some name) text reader =
            .ok (fieldSection name (resolve (scan config.scanning root) naming first)) ∧
          (resolve (scan config.scanning root) naming first = fields ↔
            ∀ r ∈ (scan config.scanning root).compositeRecords, r.name = name →
              Fields.Absorb (resolve (scan config.scanning root) naming first)
                (resolve (scan config.scanning root) naming r)) := by
  obtain ⟨naming, root, hbuild, hread⟩ := parts_of_renderFields_eq_ok h
  have hlisting := renderFields_all hbuild hread
  rw [h] at hlisting
  refine ⟨naming, root, hbuild, hread, Except.ok.inj hlisting, ?_⟩
  intro name fields hfields
  obtain ⟨first, hfirst⟩ := exists_firstRecord? hfields
  exact ⟨first, hfirst, renderFields_one hbuild hread hfirst, resolve_first_scan_iff hfirst hfields⟩

end Listing

def shelfText : String :=
  "<shelf><book/><book><title/></book></shelf>"

theorem read_shelfText : Document.read ({} : Config).reading shelfText =
    .ok ⟨"shelf", [], [⟨"book", [], [], ""⟩,
      ⟨"book", [], [⟨"title", [], [], ""⟩], ""⟩], ""⟩ :=
  rfl

def shelfListing : String :=
  "book\n  title                    string\nshelf\n  book                     list<composite>\n"

theorem renderFields_shelfText : renderFields {} none shelfText = .ok shelfListing := by
  unfold renderFields scanText
  rw [read_shelfText]
  rfl

theorem renderFields_element_shelf :
    renderFields {} none shelfText = .ok shelfListing ∧
    ∃ naming root, ({} : Config).naming.build = .ok naming ∧
      Document.read ({} : Config).reading shelfText = .ok root ∧
      ∀ name fields, (resolveAll (scan ({} : Config).scanning root) naming).get? name =
          some fields →
        ∃ first, (scan ({} : Config).scanning root).firstRecord? name = some first ∧
          renderFields {} (some name) shelfText =
            .ok (fieldSection name (resolve (scan ({} : Config).scanning root) naming first)) := by
  obtain ⟨naming, root, hbuild, hread, -, hsections⟩ :=
    renderFields_element renderFields_shelfText
  refine ⟨renderFields_shelfText, naming, root, hbuild, hread, ?_⟩
  intro name fields hfields
  obtain ⟨first, hfirst, hone, -⟩ := hsections name fields hfields
  exact ⟨first, hfirst, hone⟩

/-- The first book is listed by itself, and it shows none of the fields that the whole listing has
for books. -/
theorem renderFields_childless_first :
    renderFields {} none shelfText = .ok shelfListing ∧
    shelfListing = "book\n  title                    string\n" ++
      "shelf\n  book                     list<composite>\n" ∧
    renderFields {} (some "book") shelfText = .ok "book\n" ∧
    renderFields {} (some "book") shelfText ≠
      .ok "book\n  title                    string\n" := by
  have hone : renderFields {} (some "book") shelfText = .ok "book\n" := by
    unfold renderFields scanText
    rw [read_shelfText]
    rfl
  refine ⟨renderFields_shelfText, rfl, hone, ?_⟩
  rw [hone]
  decide

end Command
end XmlShape
