import ProjectOrder.Command.Run
import ProjectOrder.Proofs.Command.Ending
import ProjectOrder.Proofs.Document.Forest

/-!
# Settings by layers

Each setting has the value of the highest layer that specifies it, whatever the layers say of the
others: `load_by_layers`. The layers are said without the way in which they are loaded: what a file
specifies by its document (`Layer.InFile`), and what the environment specifies by the variable that
is named for the setting (`Environment.Specifies`).
-/

namespace ProjectOrder

/-! ## One setting -/

/-- The settings, by name. -/
inductive Setting where
  | filtersSuffix
  | caseOrder
  | parallel
  | verify
deriving DecidableEq, Repr

namespace Setting

/-- The values of a setting. -/
abbrev Value : Setting → Type
  | filtersSuffix => String
  | caseOrder => CaseOrder
  | parallel | verify => Bool

/-- The key of a setting. -/
def key : Setting → String
  | filtersSuffix => Layer.filtersSuffixKey
  | caseOrder => Layer.caseOrderKey
  | parallel => Layer.parallelKey
  | verify => Layer.verifyKey

end Setting

/-- What a layer specifies for a setting. -/
def Layer.get (l : Layer) : (k : Setting) → Option k.Value
  | .filtersSuffix => l.filtersSuffix
  | .caseOrder => l.caseOrder
  | .parallel => l.parallel
  | .verify => l.verify

/-- A layer is known by what it specifies for each setting. -/
theorem Layer.ext_get {l l' : Layer} (h : ∀ k, l.get k = l'.get k) : l = l' := by
  obtain ⟨suffix, order, parallel, verify⟩ := l
  have hsuffix := h .filtersSuffix
  have horder := h .caseOrder
  have hparallel := h .parallel
  have hverify := h .verify
  simp only [get] at hsuffix horder hparallel hverify
  simp [hsuffix, horder, hparallel, hverify]

namespace Settings

/-- The value of a setting. -/
def get (s : Settings) : (k : Setting) → k.Value
  | .filtersSuffix => s.filtersSuffix
  | .caseOrder => s.caseOrder
  | .parallel => s.parallel
  | .verify => s.verify

/-- Settings are known by their values. -/
theorem ext_get {s t : Settings} (h : ∀ k, s.get k = t.get k) : s = t := by
  obtain ⟨suffix, order, parallel, verify⟩ := s
  have hsuffix := h .filtersSuffix
  have horder := h .caseOrder
  have hparallel := h .parallel
  have hverify := h .verify
  simp only [get] at hsuffix horder hparallel hverify
  simp [hsuffix, horder, hparallel, hverify]

/-- A layer over settings gives the value of each setting that it specifies. -/
@[simp]
theorem get_overlay (s : Settings) (l : Layer) (k : Setting) :
    (s.overlay l).get k = (l.get k).getD (s.get k) := by
  cases k <;> rfl

/-- The value of a setting by the highest of three layers over the defaults that specifies it. -/
def prevailing (globalLayer localLayer top : Layer) (k : Setting) : k.Value :=
  ((top.get k).or ((localLayer.get k).or (globalLayer.get k))).getD (default.get k)

/-- Three layers over the default give each setting the value that prevails. -/
theorem get_overlays (globalLayer localLayer top : Layer) (k : Setting) :
    (((default.overlay globalLayer).overlay localLayer).overlay top).get k =
      prevailing globalLayer localLayer top k := by
  simp only [get_overlay, prevailing]
  cases top.get k <;> cases localLayer.get k <;> rfl

end Settings

/-! ## Layers of files -/

variable {d : Disk} {path : Option FilePath} {layer : Layer}

namespace Layer

/-- The layer of a settings file: what its document specifies, and nothing if there is no file. -/
inductive InFile (d : Disk) : Option FilePath → Layer → Prop where
  | unnamed : InFile d none .empty
  | absent {p : FilePath} : d.present p = false → InFile d (some p) .empty
  | document {p : FilePath} {text : String} {layer : Layer} :
      d.present p = true → d.content p = .ok text.toUTF8 → parse? text = some layer →
      InFile d (some p) layer

/-- A settings file that is there but cannot be read, is no text, or specifies no settings. -/
inductive Unusable (d : Disk) : Option FilePath → Prop where
  | unreadable {p : FilePath} {fault : IoFault} :
      d.present p = true → d.content p = .error fault → Unusable d (some p)
  | notText {p : FilePath} {content : ByteArray} :
      d.present p = true → d.content p = .ok content → (∀ text : String, text.toUTF8 ≠ content) →
      Unusable d (some p)
  | malformed {p : FilePath} {text : String} :
      d.present p = true → d.content p = .ok text.toUTF8 → parse? text = none →
      Unusable d (some p)

/-- Loading a file whose layer is known gives this layer and changes nothing. -/
theorem run_load_of_inFile (h : InFile d path layer) :
    (Layer.load path : StateM Disk _).run d = (.ok layer, d) := by
  cases h with
  | unnamed => rfl
  | absent hpresent => rw [run_load, hpresent, if_neg Bool.false_ne_true]
  | document hpresent hcontent hparse =>
      rw [run_load, hpresent, if_pos rfl, hcontent]
      simp only [ofContent, fromUTF8?_eq_some_iff.2 rfl, hparse]

/-- Loading an unusable file fails and changes nothing. -/
theorem run_load_of_unusable (h : Unusable d path) :
    ∃ fault, (Layer.load path : StateM Disk _).run d = (.error fault, d) := by
  cases h with
  | @unreadable p fault hpresent hcontent =>
      refine ⟨.unreadable p fault, ?_⟩
      rw [run_load, hpresent, if_pos rfl, hcontent]
  | @notText p content hpresent hcontent htext =>
      have hnone : String.fromUTF8? content = none := by
        rw [Option.eq_none_iff_forall_ne_some]
        exact fun text htext' => htext text (fromUTF8?_eq_some_iff.1 htext')
      refine ⟨.notText p, ?_⟩
      rw [run_load, hpresent, if_pos rfl, hcontent]
      simp only [ofContent, hnone]
  | @malformed p text hpresent hcontent hparse =>
      refine ⟨.malformed p, ?_⟩
      rw [run_load, hpresent, if_pos rfl, hcontent]
      simp only [ofContent, fromUTF8?_eq_some_iff.2 rfl, hparse]

/-- A settings file is unusable or makes a layer. -/
theorem unusable_or_inFile (d : Disk) (path : Option FilePath) :
    Unusable d path ∨ ∃ layer, InFile d path layer := by
  cases path with
  | none => exact .inr ⟨_, .unnamed⟩
  | some p =>
      cases hpresent : d.present p with
      | false => exact .inr ⟨_, .absent hpresent⟩
      | true =>
          cases hcontent : d.content p with
          | error fault => exact .inl (.unreadable hpresent hcontent)
          | ok content =>
              by_cases htext : ∃ text : String, text.toUTF8 = content
              · obtain ⟨text, rfl⟩ := htext
                cases hparse : parse? text with
                | none => exact .inl (.malformed hpresent hcontent hparse)
                | some layer => exact .inr ⟨layer, .document hpresent hcontent hparse⟩
              · exact .inl (.notText hpresent hcontent fun text heq => htext ⟨text, heq⟩)

end Layer

/-! ## The layer of the environment -/

namespace Environment

/-- The environment has a variable for a setting with this text. -/
def Sets (env : Environment) (k : Setting) (text : String) : Prop :=
  ∃ name, (name, text) ∈ env ∧ names k.key name

/-- No setting has more than one variable. -/
def Unambiguous (env : Environment) : Prop :=
  ∀ k : Setting, ∀ v ∈ env, ∀ w ∈ env, names k.key v.1 → names k.key w.1 → v = w

/-- The words for a truth value. -/
def flagWords : Bool → List String
  | true => ["1", "true", "on", "yes"]
  | false => ["0", "false", "off", "no"]

/-- The environment has a variable for a setting whose text is one of this value: a suffix is any
text, a case order is read generously, and a truth value is one of the words for it in any case of
letters. -/
def Specifies (env : Environment) : (k : Setting) → k.Value → Prop
  | .filtersSuffix, suffix => env.Sets .filtersSuffix suffix
  | .caseOrder, order => ∃ text, env.Sets .caseOrder text ∧ CaseOrder.parse text = .ok order
  | .parallel, b => ∃ text, env.Sets .parallel text ∧ String.ofList (lowered text) ∈ flagWords b
  | .verify, b => ∃ text, env.Sets .verify text ∧ String.ofList (lowered text) ∈ flagWords b

/-- A layer that specifies what the environment does. -/
def Makes (env : Environment) (top : Layer) : Prop :=
  ∀ k v, top.get k = some v ↔ env.Specifies k v

/-- The variable for the case order has a text that names none. -/
def MisnamesCaseOrder (env : Environment) : Prop :=
  ∃ text fault, env.Sets .caseOrder text ∧ CaseOrder.parse text = .error fault

variable {env : Environment} {k : Setting} {text : String} {top top' : Layer}

/-- Where no setting has two variables, the text of a key is what its variable is set to. -/
theorem text?_eq_some_iff (henv : env.Unambiguous) :
    env.text? k.key = some text ↔ env.Sets k text := by
  rw [text?, Option.map_eq_some_iff]
  constructor
  · rintro ⟨⟨name, text⟩, hfind, rfl⟩
    have hname := List.find?_some hfind
    exact ⟨name, List.mem_of_find?_eq_some hfind, hname⟩
  · intro ⟨name, hmem, hname⟩
    have hsome : (env.find? fun v => names k.key v.1).isSome :=
      List.find?_isSome.2 ⟨(name, text), hmem, hname⟩
    obtain ⟨v, hfind⟩ := Option.isSome_iff_exists.1 hsome
    have hv := List.find?_some hfind
    obtain rfl := henv k v (List.mem_of_find?_eq_some hfind) _ hmem hv hname
    exact ⟨_, hfind, rfl⟩

/-- A text is a truth value if it is one of the words for it. -/
theorem flag?_eq_some_iff {b : Bool} :
    flag? text = some b ↔ String.ofList (lowered text) ∈ flagWords b := by
  have hdisjoint : ∀ word ∈ flagWords true, word ∉ flagWords false := by decide
  rw [flag?]
  generalize String.ofList (lowered text) = word
  show (if word ∈ flagWords true then some true else if word ∈ flagWords false then some false
    else none) = some b ↔ _
  split
  · rename_i hword
    cases b with
    | true => simp [hword]
    | false => simp [hdisjoint word hword]
  · rename_i hword
    cases b with
    | true => split <;> simp [hword]
    | false => split <;> simp_all

/-- The environment makes one layer only. -/
theorem Makes.unique (h : env.Makes top) (h' : env.Makes top') : top = top' :=
  Layer.ext_get fun k => Option.ext fun v => (h k v).trans (h' k v).symm

/-- The layer with a case order specifies what the environment does if the case order is the one
that the environment specifies. -/
theorem makes_layerWith (henv : env.Unambiguous) {caseOrder : Option CaseOrder}
    (horder : ∀ order, caseOrder = some order ↔ env.Specifies .caseOrder order) :
    env.Makes (env.layerWith caseOrder) := by
  have hflag (k : Setting) (b : Bool) : (env.text? k.key).bind flag? = some b ↔
      ∃ text, env.Sets k text ∧ String.ofList (lowered text) ∈ flagWords b := by
    simp only [Option.bind_eq_some_iff, text?_eq_some_iff henv, flag?_eq_some_iff]
  intro k v
  cases k with
  | filtersSuffix => exact text?_eq_some_iff (k := .filtersSuffix) henv
  | caseOrder => exact horder v
  | parallel => exact hflag .parallel v
  | verify => exact hflag .verify v

/-- The layer of the environment is made unless the case order is misnamed. -/
theorem layer_cases (henv : env.Unambiguous) :
    (env.MisnamesCaseOrder ∧ ∃ fault, env.layer = .error fault) ∨
      (¬ env.MisnamesCaseOrder ∧ ∃ top, env.layer = .ok top ∧ env.Makes top) := by
  have hsets (text : String) :
      env.text? Layer.caseOrderKey = some text ↔ env.Sets .caseOrder text :=
    text?_eq_some_iff (k := .caseOrder) henv
  rw [layer]
  cases htext : env.text? Layer.caseOrderKey with
  | none =>
      have hnone (text : String) : ¬ env.Sets .caseOrder text := by
        rw [← hsets, htext]
        simp
      refine .inr ⟨fun ⟨text, _, h, _⟩ => hnone text h, env.layerWith none, rfl,
        makes_layerWith henv fun order => ?_⟩
      simp [Specifies, hnone]
  | some text =>
      have hsome (other : String) : env.Sets .caseOrder other ↔ other = text := by
        rw [← hsets, htext, Option.some.injEq, eq_comm]
      cases hparse : CaseOrder.parse text with
      | error fault =>
          refine .inl ⟨⟨text, fault, (hsome text).2 rfl, hparse⟩, .caseOrder fault, ?_⟩
          simp only [hparse]
      | ok order =>
          refine .inr ⟨fun ⟨other, fault, hother, hfault⟩ => ?_, env.layerWith (some order), ?_,
            makes_layerWith henv fun o => ?_⟩
          · rw [(hsome other).1 hother, hparse] at hfault
            cases hfault
          · simp only [hparse]
          · simp [Specifies, hsome, hparse]

end Environment

/-! ## Loading -/

namespace Settings

/-- The layers that settings are loaded from. -/
structure Layered (d : Disk) (globalPath directory : Option FilePath) (env : Environment)
    (globalLayer localLayer top : Layer) : Prop where
  globalFile : Layer.InFile d globalPath globalLayer
  localFile : Layer.InFile d (directory.map localSettingsPath) localLayer
  environment : env.Makes top

variable {env : Environment} {globalPath directory : Option FilePath} {s : Settings}

/-- Loading changes nothing, and fails with the first layer that cannot be had. -/
theorem run_load : (load globalPath directory env : StateM Disk _).run d =
    (do
      let globalLayer ← ((Layer.load globalPath : StateM Disk _).run d).1
      let localLayer ← ((Layer.load (directory.map localSettingsPath) : StateM Disk _).run d).1
      ofLayers globalLayer localLayer env, d) := by
  rw [load, Disk.run_bind, (Layer.steady_load _).disk]
  cases ((Layer.load globalPath : StateM Disk _).run d).1 with
  | error fault => rfl
  | ok globalLayer =>
      simp only [Disk.run_bind, (Layer.steady_load _).disk]
      cases ((Layer.load (directory.map localSettingsPath) : StateM Disk _).run d).1 <;> rfl

/-- Settings that are loaded from layers are those of the layers, one over the other, if these may
be used. -/
theorem run_load_of_layered {globalLayer localLayer top : Layer}
    (h : Layered d globalPath directory env globalLayer localLayer top)
    (henv : env.layer = .ok top) :
    (load globalPath directory env : StateM Disk _).run d =
      (check (((default.overlay globalLayer).overlay localLayer).overlay top), d) := by
  rw [run_load, Layer.run_load_of_inFile h.globalFile, Layer.run_load_of_inFile h.localFile]
  show (ofLayers globalLayer localLayer env, d) = _
  rw [ofLayers, henv]
  rfl

/-- A layer cannot be had: a file is there but unusable, or the environment misnames the case
order. -/
def Unlayered (d : Disk) (globalPath directory : Option FilePath) (env : Environment) : Prop :=
  Layer.Unusable d globalPath ∨ Layer.Unusable d (directory.map localSettingsPath) ∨
    env.MisnamesCaseOrder

/-- Where a layer cannot be had, loading fails and changes nothing. -/
theorem run_load_of_unlayered (henv : env.Unambiguous)
    (h : Unlayered d globalPath directory env) :
    ∃ fault, (load globalPath directory env : StateM Disk _).run d = (.error fault, d) := by
  rw [run_load]
  rcases h with hglobal | hlocal | hmisnamed
  · obtain ⟨fault, hfault⟩ := Layer.run_load_of_unusable hglobal
    rw [hfault]
    exact ⟨fault, rfl⟩
  · obtain ⟨fault, hfault⟩ := Layer.run_load_of_unusable hlocal
    rw [hfault]
    cases ((Layer.load globalPath : StateM Disk _).run d).1 <;> exact ⟨_, rfl⟩
  · obtain ⟨fault, hfault⟩ : ∃ fault, env.layer = .error fault := by
      rcases Environment.layer_cases henv with ⟨-, hfault⟩ | ⟨hnamed, -⟩
      · exact hfault
      · exact absurd hmisnamed hnamed
    cases ((Layer.load globalPath : StateM Disk _).run d).1 with
    | error => exact ⟨_, rfl⟩
    | ok globalLayer =>
        cases ((Layer.load (directory.map localSettingsPath) : StateM Disk _).run d).1 with
        | error => exact ⟨_, rfl⟩
        | ok localLayer =>
            refine ⟨fault, ?_⟩
            show (ofLayers globalLayer localLayer env, d) = _
            rw [ofLayers, hfault]
            rfl

/-- Either a layer cannot be had, or all layers are there and the environment names a case order or
none. -/
theorem unlayered_or_layered (henv : env.Unambiguous) (d : Disk)
    (globalPath directory : Option FilePath) :
    Unlayered d globalPath directory env ∨ (¬ env.MisnamesCaseOrder ∧
      ∃ globalLayer localLayer top, env.layer = .ok top ∧
        Layered d globalPath directory env globalLayer localLayer top) := by
  rcases Layer.unusable_or_inFile d globalPath with hglobal | ⟨globalLayer, hglobal⟩
  · exact .inl (.inl hglobal)
  rcases Layer.unusable_or_inFile d (directory.map localSettingsPath) with
    hlocal | ⟨localLayer, hlocal⟩
  · exact .inl (.inr (.inl hlocal))
  rcases Environment.layer_cases henv with ⟨hmisnamed, -⟩ | ⟨hnamed, top, hlayer, hmakes⟩
  · exact .inl (.inr (.inr hmisnamed))
  · exact .inr ⟨hnamed, globalLayer, localLayer, top, hlayer, hglobal, hlocal, hmakes⟩

/-- Layers are made in one way. -/
theorem Layered.unique {globalLayer localLayer top globalLayer' localLayer' top' : Layer}
    (h : Layered d globalPath directory env globalLayer localLayer top)
    (h' : Layered d globalPath directory env globalLayer' localLayer' top') :
    globalLayer = globalLayer' ∧ localLayer = localLayer' ∧ top = top' := by
  have hfile {path : Option FilePath} {l l' : Layer} (h : Layer.InFile d path l)
      (h' : Layer.InFile d path l') : l = l' := by
    have heq := (Layer.run_load_of_inFile h).symm.trans (Layer.run_load_of_inFile h')
    exact Except.ok.inj (congrArg Prod.fst heq)
  exact ⟨hfile h.globalFile h'.globalFile, hfile h.localFile h'.localFile,
    h.environment.unique h'.environment⟩

/-- Loading from layers: it fails if the suffix that prevails is empty, and otherwise each setting
has the value that prevails. -/
theorem run_load_cases {globalLayer localLayer top : Layer}
    (h : Layered d globalPath directory env globalLayer localLayer top)
    (henv : env.layer = .ok top) :
    (prevailing globalLayer localLayer top .filtersSuffix = "" ∧
      (load globalPath directory env : StateM Disk _).run d = (.error .emptySuffix, d)) ∨
    (prevailing globalLayer localLayer top .filtersSuffix ≠ "" ∧
      ∃ s, (load globalPath directory env : StateM Disk _).run d = (.ok s, d) ∧
        ∀ k, s.get k = prevailing globalLayer localLayer top k) := by
  have hvalues := get_overlays globalLayer localLayer top
  have hsuffix := hvalues .filtersSuffix
  rw [run_load_of_layered h henv, ← hsuffix]
  by_cases hempty :
    (((default.overlay globalLayer).overlay localLayer).overlay top).filtersSuffix = ""
  · exact .inl ⟨hempty, by rw [check, if_pos hempty]⟩
  · exact .inr ⟨hempty, _, by rw [check, if_neg hempty], hvalues⟩

/-- Loading fails exactly if a layer cannot be had or the suffix that prevails is empty. -/
theorem exists_run_load_eq_error_iff (henv : env.Unambiguous) :
    (∃ fault, (load globalPath directory env : StateM Disk _).run d = (.error fault, d)) ↔
      Unlayered d globalPath directory env ∨ ∃ globalLayer localLayer top,
        Layered d globalPath directory env globalLayer localLayer top ∧
          prevailing globalLayer localLayer top .filtersSuffix = "" := by
  constructor
  · intro ⟨fault, hfault⟩
    rcases unlayered_or_layered henv d globalPath directory with h | ⟨-, gl, ll, top, hlayer, h⟩
    · exact .inl h
    · rcases run_load_cases h hlayer with ⟨hempty, -⟩ | ⟨-, s, hs, -⟩
      · exact .inr ⟨gl, ll, top, h, hempty⟩
      · rw [hs] at hfault
        cases hfault
  · rintro (h | ⟨gl, ll, top, h, hempty⟩)
    · exact run_load_of_unlayered henv h
    · rcases unlayered_or_layered henv d globalPath directory with
        h' | ⟨-, gl', ll', top', hlayer, h'⟩
      · exact run_load_of_unlayered henv h'
      · obtain ⟨rfl, rfl, rfl⟩ := h.unique h'
        rcases run_load_cases h hlayer with ⟨-, hfault⟩ | ⟨hsuffix, -⟩
        · exact ⟨_, hfault⟩
        · exact absurd hempty hsuffix

/-- Loading succeeds exactly with settings that have the values that prevail, if every layer can be
had and the suffix is not empty. -/
theorem run_load_eq_ok_iff (henv : env.Unambiguous) :
    (load globalPath directory env : StateM Disk _).run d = (.ok s, d) ↔
      ¬ env.MisnamesCaseOrder ∧ ∃ globalLayer localLayer top,
        Layered d globalPath directory env globalLayer localLayer top ∧
          prevailing globalLayer localLayer top .filtersSuffix ≠ "" ∧
          ∀ k, s.get k = prevailing globalLayer localLayer top k := by
  constructor
  · intro hs
    rcases unlayered_or_layered henv d globalPath directory with
      h | ⟨hnamed, gl, ll, top, hlayer, h⟩
    · obtain ⟨fault, hfault⟩ := run_load_of_unlayered henv h
      rw [hs] at hfault
      cases hfault
    · rcases run_load_cases h hlayer with ⟨-, hfault⟩ | ⟨hsuffix, s', hs', hvalues⟩
      · rw [hs] at hfault
        cases hfault
      · rw [hs] at hs'
        cases hs'
        exact ⟨hnamed, gl, ll, top, h, hsuffix, hvalues⟩
  · intro ⟨hnamed, gl, ll, top, h, hsuffix, hvalues⟩
    rcases Environment.layer_cases henv with ⟨hmisnamed, -⟩ | ⟨-, top', hlayer, hmakes⟩
    · exact absurd hmisnamed hnamed
    · obtain rfl := h.environment.unique hmakes
      rcases run_load_cases h hlayer with ⟨hempty, -⟩ | ⟨-, s', hs', hvalues'⟩
      · exact absurd hempty hsuffix
      · obtain rfl : s = s' := ext_get fun k => (hvalues k).trans (hvalues' k).symm
        exact hs'

/-- Settings loaded from layers that agree on one setting agree on it. -/
theorem get_eq_of_layered {d' : Disk} {globalPath' directory' : Option FilePath}
    {env' : Environment}
    {s' : Settings} {globalLayer localLayer top globalLayer' localLayer' top' : Layer} {k : Setting}
    (henv : env.Unambiguous) (henv' : env'.Unambiguous)
    (hs : (load globalPath directory env : StateM Disk _).run d = (.ok s, d))
    (hs' : (load globalPath' directory' env' : StateM Disk _).run d' = (.ok s', d'))
    (h : Layered d globalPath directory env globalLayer localLayer top)
    (h' : Layered d' globalPath' directory' env' globalLayer' localLayer' top')
    (hglobal : globalLayer.get k = globalLayer'.get k)
    (hlocal : localLayer.get k = localLayer'.get k) (htop : top.get k = top'.get k) :
    s.get k = s'.get k := by
  obtain ⟨-, _, _, _, hlayers, -, hvalues⟩ := (run_load_eq_ok_iff henv).1 hs
  obtain ⟨rfl, rfl, rfl⟩ := h.unique hlayers
  obtain ⟨-, _, _, _, hlayers', -, hvalues'⟩ := (run_load_eq_ok_iff henv').1 hs'
  obtain ⟨rfl, rfl, rfl⟩ := h'.unique hlayers'
  rw [hvalues k, hvalues' k, prevailing, prevailing, hglobal, hlocal, htop]

/-- The settings of a command are loaded settings with its options over them. -/
theorem run_settingsFor_eq_ok_iff {ctx : Context} {i : Invocation} :
    (settingsFor ctx i : StateM Disk _).run d = (.ok s, d) ↔
      ∃ base, (load (globalSettingsPath? ctx.environment) (i.settingsDirectory ctx)
          ctx.environment : StateM Disk _).run d = (.ok base, d) ∧
        s.caseOrder = i.caseOrder.getD base.caseOrder ∧
        s.parallel = (!i.sequential && base.parallel) ∧
        s.filtersSuffix = base.filtersSuffix ∧ s.verify = base.verify := by
  have hoptions (base : Settings) : base.overlay i.layer = s ↔
      s.caseOrder = i.caseOrder.getD base.caseOrder ∧
        s.parallel = (!i.sequential && base.parallel) ∧
        s.filtersSuffix = base.filtersSuffix ∧ s.verify = base.verify := by
    obtain ⟨suffix, order, parallel, verify⟩ := s
    cases hsequential : i.sequential <;>
      simp only [overlay, Invocation.layer, hsequential, mk.injEq, Option.getD_none] <;> grind
  have hdisk := (steady_load (globalSettingsPath? ctx.environment) (i.settingsDirectory ctx)
    ctx.environment).disk d
  rw [settingsFor, Disk.run_bind]
  generalize (load (globalSettingsPath? ctx.environment) (i.settingsDirectory ctx) ctx.environment :
      StateM Disk _).run d = outcome at hdisk ⊢
  obtain ⟨loaded, d'⟩ := outcome
  obtain rfl : d' = d := hdisk
  cases loaded with
  | error fault =>
      constructor
      · intro h
        cases h
      · rintro ⟨base, h, -⟩
        cases h
  | ok base =>
      constructor
      · intro h
        cases h
        exact ⟨base, rfl, (hoptions base).1 rfl⟩
      · rintro ⟨base', h, hvalues⟩
        cases h
        rw [← (hoptions base).2 hvalues]
        rfl

/-- Settings by layers. Loading fails exactly if a file that is there is unusable, the environment
misnames the case order, or the suffix that prevails is empty; otherwise each setting has the value
of the highest layer that specifies it. Hence settings loaded from layers that agree on one setting
agree on it, whatever the layers say of the others. The options of a command win over all layers for
their own settings. -/
theorem load_by_layers (henv : env.Unambiguous) (d : Disk)
    (globalPath directory : Option FilePath) :
    ((∃ fault, (load globalPath directory env : StateM Disk _).run d = (.error fault, d)) ↔
        Layer.Unusable d globalPath ∨ Layer.Unusable d (directory.map localSettingsPath) ∨
          env.MisnamesCaseOrder ∨
          ∃ globalLayer localLayer top,
            Layered d globalPath directory env globalLayer localLayer top ∧
            prevailing globalLayer localLayer top .filtersSuffix = "") ∧
      (∀ s, (load globalPath directory env : StateM Disk _).run d = (.ok s, d) ↔
        ¬ env.MisnamesCaseOrder ∧ ∃ globalLayer localLayer top,
          Layered d globalPath directory env globalLayer localLayer top ∧
            prevailing globalLayer localLayer top .filtersSuffix ≠ "" ∧
            ∀ k, s.get k = prevailing globalLayer localLayer top k) ∧
      (∀ d' globalPath' directory' env' s s' gl ll top gl' ll' top' k, env'.Unambiguous →
        (load globalPath directory env : StateM Disk _).run d = (.ok s, d) →
        (load globalPath' directory' env' : StateM Disk _).run d' = (.ok s', d') →
        Layered d globalPath directory env gl ll top →
        Layered d' globalPath' directory' env' gl' ll' top' →
        gl.get k = gl'.get k → ll.get k = ll'.get k → top.get k = top'.get k →
        s.get k = s'.get k) ∧
      (∀ ctx i s, ctx.environment = env →
        ((settingsFor ctx i : StateM Disk _).run d = (.ok s, d) ↔
          ∃ base,
            (load (globalSettingsPath? env) (i.settingsDirectory ctx) env : StateM Disk _).run d =
              (.ok base, d) ∧
            s.caseOrder = i.caseOrder.getD base.caseOrder ∧
            s.parallel = (!i.sequential && base.parallel) ∧
            s.filtersSuffix = base.filtersSuffix ∧ s.verify = base.verify)) := by
  refine ⟨?_, fun s => run_load_eq_ok_iff henv, ?_, ?_⟩
  · rw [exists_run_load_eq_error_iff henv, Unlayered, or_assoc, or_assoc]
  · intro d' globalPath' directory' env' s s' gl ll top gl' ll' top' k henv' hs hs' h h'
    exact get_eq_of_layered henv henv' hs hs' h h'
  · rintro ctx i s rfl
    exact run_settingsFor_eq_ok_iff

/-- The empty suffix of the global file does no harm under that of the local file, and a variable
whose text is no truth value leaves what the global file says. -/
theorem load_by_layers_suffixBelow :
    let globalFile : FilePath := ⟨"g.toml"⟩
    let globalText := "filters_suffix = \"\"\nverify = false\n"
    let localText := "filters_suffix = \".f\"\n"
    let d := Disk.ofFiles
      [(globalFile, globalText.toUTF8), (localSettingsPath ⟨"p"⟩, localText.toUTF8)]
    let env : Environment := [("VCXSORT_PARALLEL", "off"), ("VcxSort_Verify", "maybe")]
    env.Unambiguous ∧
      (load globalFile (some ⟨"p"⟩) env : StateM Disk _).run d =
        (.ok ⟨".f", .upperFirst, false, false⟩, d) := by
  intro globalFile globalText localText d env
  have hother : ¬ globalFile.same (localSettingsPath ⟨"p"⟩) := by decide
  have hglobalText : Layer.parse? globalText = some ⟨some "", none, none, some false⟩ := by
    decide +kernel
  have hlocalText : Layer.parse? localText = some ⟨some ".f", none, none, none⟩ := by
    decide +kernel
  have hglobal : Layer.InFile d globalFile _ :=
    .document (by simp [d, Disk.ofFiles]) (by simp [d, Disk.ofFiles]) hglobalText
  have hlocal : Layer.InFile d (localSettingsPath ⟨"p"⟩) _ :=
    .document (by simp [d, Disk.ofFiles]) (by simp [d, Disk.ofFiles, hother]) hlocalText
  have henv : env.Unambiguous := by
    intro k v hv w hw
    simp only [env, List.mem_cons, List.not_mem_nil, or_false] at hv hw
    rcases hv with rfl | rfl <;> rcases hw with rfl | rfl <;> cases k <;> decide
  have hlayer : env.layer = .ok ⟨none, none, some false, none⟩ := rfl
  rcases Environment.layer_cases henv with ⟨-, fault, hfault⟩ | ⟨hnamed, top, htop, hmakes⟩
  · rw [hlayer] at hfault
    cases hfault
  rw [hlayer] at htop
  cases htop
  refine ⟨henv, ((load_by_layers henv d globalFile (some ⟨"p"⟩)).2.1 _).2
    ⟨hnamed, _, _, _, ⟨hglobal, hlocal, hmakes⟩, by decide, fun k => ?_⟩⟩
  cases k <;> rfl

end Settings

end ProjectOrder
