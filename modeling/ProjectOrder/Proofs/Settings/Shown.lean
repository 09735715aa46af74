import ProjectOrder.Proofs.Settings.Layers
import ProjectOrder.Proofs.Toml.Lines

/-!
# Shown settings load back

The document that shows settings specifies exactly these: `Layer.parse?_toToml`. Put where the
settings of a project directory are looked up, it is therefore loaded as what was shown, whatever
the user's own file says: `load_shown`. The suffix may hold any characters, and the document quotes
it as they need.
-/

namespace ProjectOrder

open Toml (writes_string writes_boolean)

namespace Settings

/-! ## The document -/

/-- The layer that specifies all settings as they are. -/
def toLayer (s : Settings) : Layer :=
  ⟨some s.filtersSuffix, some s.caseOrder, some s.parallel, some s.verify⟩

/-- The lines of the document that shows settings. -/
def lines (s : Settings) : List Toml.Line :=
  [⟨Layer.filtersSuffixKey, _, _, by decide, by decide, writes_string s.filtersSuffix⟩,
    ⟨Layer.caseOrderKey, _, _, by decide, by decide, writes_string s.caseOrder.name⟩,
    ⟨Layer.parallelKey, _, _, by decide, by decide, writes_boolean s.parallel⟩,
    ⟨Layer.verifyKey, _, _, by decide, by decide, writes_boolean s.verify⟩]

/-- The document that shows settings is made of its lines. -/
theorem toToml_eq (s : Settings) : s.toToml = String.ofList (s.lines.flatMap Toml.Line.chars) := by
  rw [← String.toList_inj, String.toList_ofList]
  simp [toToml, line, lines, Toml.Line.chars]

end Settings

/-- The document that shows settings specifies all of them as they are. -/
theorem Layer.parse?_toToml (s : Settings) : Layer.parse? s.toToml = some s.toLayer := by
  have hkeys : (s.lines.map Toml.Line.key).Nodup := by
    show [filtersSuffixKey, caseOrderKey, parallelKey, verifyKey].Nodup
    decide
  rw [parse?, Settings.toToml_eq, Toml.parse?_lines hkeys, Option.bind_some]
  obtain ⟨suffix, order, parallel, verify⟩ := s
  cases order <;> rfl

namespace Settings

variable {d : Disk} {globalPath : Option FilePath} {directory : FilePath} {env : Environment}
  {globalLayer : Layer} {s : Settings}

/-- Shown settings load back. The document that shows settings with a suffix, as the file of a
project directory, is loaded as these settings, over any file of the user that can be loaded and
where no variable is one for a setting. -/
theorem load_shown (hsuffix : s.filtersSuffix ≠ "")
    (hpresent : d.present (localSettingsPath directory))
    (hcontent : d.content (localSettingsPath directory) = .ok s.toToml.toUTF8)
    (hglobal : Layer.InFile d globalPath globalLayer) (henv : ∀ k text, ¬ env.Sets k text) :
    (load globalPath (some directory) env : StateM Disk _).run d = (.ok s, d) := by
  have henv' : env.Unambiguous := fun k v hv _ _ hname _ => absurd ⟨v.1, hv, hname⟩ (henv k v.2)
  have hlocal : Layer.InFile d (some (localSettingsPath directory)) s.toLayer :=
    .document hpresent hcontent (Layer.parse?_toToml s)
  have hmakes : env.Makes .empty := by
    intro k v
    cases k <;> simp [Layer.get, Layer.empty, Environment.Specifies, henv]
  have hvalues (k : Setting) : prevailing globalLayer s.toLayer .empty k = s.get k := by
    cases k <;> rfl
  have hnamed : ¬ env.MisnamesCaseOrder := by
    rintro ⟨text, fault, hset, -⟩
    exact henv _ text hset
  refine (run_load_eq_ok_iff henv').2 ⟨hnamed, globalLayer, s.toLayer, .empty,
    ⟨hglobal, hlocal, hmakes⟩,
    ?_, fun k => (hvalues k).symm⟩
  rw [hvalues]
  exact hsuffix

/-- Neither the escapes that the suffix needs nor what the user's own file says gets in the way, and
a variable with a doubled underscore is not one for a setting. -/
theorem load_shown_awkwardSuffix :
    let s : Settings := ⟨"a\"\"\"b\\\n\x01'c", .lowerFirst, false, true⟩
    let globalFile : FilePath := ⟨"g.toml"⟩
    let globalText := "filters_suffix = \"\"\nparallel = true\n"
    let d := Disk.ofFiles
      [(globalFile, globalText.toUTF8), (localSettingsPath ⟨"p"⟩, s.toToml.toUTF8)]
    let env : Environment := [("VCXSORT__PARALLEL", "true")]
    (load globalFile (some ⟨"p"⟩) env : StateM Disk _).run d = (.ok s, d) := by
  intro s globalFile globalText d env
  have hother : ¬ globalFile.same (localSettingsPath ⟨"p"⟩) := by decide
  have hglobalText : Layer.parse? globalText = some ⟨some "", none, some true, none⟩ := by
    decide +kernel
  have hglobal : Layer.InFile d globalFile _ :=
    .document (by simp [d, Disk.ofFiles]) (by simp [d, Disk.ofFiles]) hglobalText
  have henv (k : Setting) (text : String) : ¬ env.Sets k text := by
    rintro ⟨name, hmem, hname⟩
    obtain ⟨rfl, rfl⟩ := Prod.mk.inj (List.mem_singleton.1 hmem)
    revert hname
    cases k <;> decide
  exact load_shown (by decide) (by simp [d, Disk.ofFiles]) (by simp [d, Disk.ofFiles, hother])
    hglobal henv

end Settings

end ProjectOrder
