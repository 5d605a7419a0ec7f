import NodeIdentity.ReadConfig
import NodeIdentity.Library.Assignments

/-!
# Order of the elements

`get_data` assigns the variables of one setting after the other, but it passes
over the settings of the DHT until it has met the type of a core node.  So a
setting of the DHT in front of the type is not read.  And a `dht` element may
be a flag or a section; the flag is the number at the front of the last one.
-/

namespace NodeIdentity

open NodeIdentity.Library

abbrev Content := Setting × List UInt8

/-- The contents of the settings among the elements. -/
def contents (items : List XmlNode.Element) : List Content :=
  items.filterMap fun item =>
    (Setting.ofName item.1).bind fun setting =>
      (xmlNodeGetContent item.2).map fun data => (setting, data)

/-- Nothing is missing in the elements of the settings. -/
def Present (items : List XmlNode.Element) : Prop :=
  ∀ item ∈ items, Setting.ofName item.1 ≠ none →
    xmlNodeGetContent item.2 ≠ none

def readContent (vars : Variables) (item : Content) : Option Variables :=
  readSetting item.1 (some item.2) vars

theorem foldlM_readElement {items : List XmlNode.Element}
    (present : Present items) (vars : Variables) :
    items.foldlM readElement vars =
      (contents items).foldlM readContent vars := by
  induction items generalizing vars with
  | nil => rfl
  | cons item items ih =>
      have later : Present items := fun other member =>
        present other (List.mem_cons_of_mem item member)
      rw [List.foldlM_cons]
      cases name : Setting.ofName item.1 with
      | none =>
          have passed : readElement vars item = some vars := by
            rw [readElement, name]
          have without : contents (item :: items) = contents items := by
            simp [contents, name]
          rw [passed, without, Option.bind_eq_bind, Option.bind_some]
          exact ih later vars
      | some setting =>
          have here := present item List.mem_cons_self (by simp [name])
          obtain ⟨data, content⟩ := Option.ne_none_iff_exists'.mp here
          have step : readElement vars item =
              readContent vars (setting, data) := by
            rw [readElement, name, readContent, content]
          have first : contents (item :: items) =
              (setting, data) :: contents items := by
            simp [contents, name, content]
          rw [step, first, List.foldlM_cons]
          congr 1
          funext vars
          exact ih later vars

/-- Whether the type is that of a core node, after one more setting. -/
def coreAfter (core : Bool) (item : Content) : Bool :=
  if item.1 = .type then unsignedShort (atoi item.2) = coreType else core

/-- The contents which are read, all but those of the DHT which come while the
type is that of another node. -/
def accepted (core : Bool) : List Content → List Content
  | [] => []
  | item :: rest =>
      if item.1.coreOnly && !core then accepted core rest
      else item :: accepted (coreAfter core item) rest

theorem isCore_update {vars : Variables} {item : Content}
    {value : item.1.Value}
    (stored : item.1.store item.2 (vars item.1) = some value) :
    Variables.isCore (Function.update vars item.1 value) =
      coreAfter vars.isCore item := by
  obtain ⟨setting, data⟩ := item
  by_cases same : setting = .type
  · subst setting
    have number : unsignedShort (atoi data) = value :=
      Option.some.inj stored
    rw [Variables.isCore, coreAfter, if_pos rfl, number]
    simp
  · rw [coreAfter, if_neg same, Variables.isCore, Variables.isCore,
      Function.update_of_ne (Ne.symm same)]

theorem foldlM_readContent (items : List Content) (vars : Variables) :
    items.foldlM readContent vars =
      (accepted vars.isCore items).foldlM
        (Assignments.assign Setting.store) vars := by
  induction items generalizing vars with
  | nil => rfl
  | cons item items ih =>
      rw [List.foldlM_cons, accepted]
      by_cases passed : (item.1.coreOnly && !vars.isCore) = true
      · rw [readContent, readSetting, if_pos passed, if_pos passed]
        exact ih vars
      · rw [readContent, readSetting, if_neg passed, if_neg passed,
          List.foldlM_cons, Assignments.assign]
        cases stored : item.1.store item.2 (vars item.1) with
        | none => rfl
        | some value =>
            simp only [Option.map_some, Option.bind_eq_bind, Option.bind_some]
            rw [ih, isCore_update stored]

def isCoreNode (items : List Content) : Bool :=
  items.any fun item =>
    item.1 = .type && unsignedShort (atoi item.2) = coreType

def behindType (items : List Content) : List Content :=
  (items.dropWhile fun item => item.1 ≠ .type).tail

theorem isCoreNode_eq_any (items : List Content) :
    isCoreNode items = (Assignments.ofKey .type items).any fun data =>
      unsignedShort (atoi data) = coreType := by
  induction items with
  | nil => rfl
  | cons item items ih =>
      obtain ⟨setting, data⟩ := item
      rw [isCoreNode] at ih ⊢
      rw [List.any_cons, ih]
      by_cases same : setting = .type
      · subst setting
        rw [Assignments.ofKey_cons_self, List.any_cons]
        rfl
      · rw [Assignments.ofKey_cons_of_ne same, decide_eq_false same]
        rfl

theorem ofKey_accepted_of_free {setting : Setting}
    (free : setting.coreOnly = false) (core : Bool) (items : List Content) :
    Assignments.ofKey setting (accepted core items) =
      Assignments.ofKey setting items := by
  induction items generalizing core with
  | nil => rfl
  | cons item items ih =>
      obtain ⟨other, data⟩ := item
      rw [accepted]
      by_cases same : other = setting
      · subst other
        rw [if_neg (by simp [free]), Assignments.ofKey_cons_self,
          Assignments.ofKey_cons_self, ih]
      · rw [Assignments.ofKey_cons_of_ne same]
        split
        · exact ih core
        · rw [Assignments.ofKey_cons_of_ne same]
          exact ih _

theorem ofKey_accepted_of_untyped {setting : Setting}
    (gated : setting.coreOnly = true) (core : Bool) {items : List Content}
    (untyped : Assignments.ofKey .type items = []) :
    Assignments.ofKey setting (accepted core items) =
      if core then Assignments.ofKey setting items else [] := by
  induction items with
  | nil => exact (ite_self _).symm
  | cons item items ih =>
      obtain ⟨other, data⟩ := item
      have noType : other ≠ .type := by
        intro same
        rw [same, Assignments.ofKey_cons_self] at untyped
        cases untyped
      rw [Assignments.ofKey_cons_of_ne noType] at untyped
      have unchanged : coreAfter core (other, data) = core := if_neg noType
      rw [accepted, unchanged]
      cases core with
      | true =>
          rw [if_neg (by simp)]
          by_cases same : other = setting
          · subst other
            rw [Assignments.ofKey_cons_self, Assignments.ofKey_cons_self,
              ih untyped]
            rfl
          · rw [Assignments.ofKey_cons_of_ne same,
              Assignments.ofKey_cons_of_ne same, ih untyped]
      | false =>
          by_cases passed : other.coreOnly = true
          · rw [if_pos (by simp [passed]), ih untyped]
            rfl
          · have apart : other ≠ setting := by
              intro same
              rw [same] at passed
              exact passed gated
            rw [if_neg (by simp [passed]), Assignments.ofKey_cons_of_ne apart,
              ih untyped]
            rfl

theorem ofKey_accepted_of_gated {setting : Setting}
    (gated : setting.coreOnly = true) {items : List Content}
    (once : (Assignments.ofKey .type items).length ≤ 1) :
    Assignments.ofKey setting (accepted false items) =
      if isCoreNode items then Assignments.ofKey setting (behindType items)
      else [] := by
  induction items with
  | nil => rfl
  | cons item items ih =>
      obtain ⟨other, data⟩ := item
      have apart : other.coreOnly = false → other ≠ setting := by
        intro free same
        rw [same, gated] at free
        cases free
      by_cases same : other = .type
      · subst other
        rw [Assignments.ofKey_cons_self, List.length_cons] at once
        have untyped : Assignments.ofKey .type items = [] :=
          List.eq_nil_of_length_eq_zero (by omega)
        have lastType : isCoreNode ((.type, data) :: items) =
            decide (unsignedShort (atoi data) = coreType) := by
          rw [isCoreNode_eq_any, Assignments.ofKey_cons_self, untyped,
            List.any_cons, List.any_nil, Bool.or_false]
        rw [accepted, if_neg (by simp [Setting.coreOnly]),
          Assignments.ofKey_cons_of_ne (apart rfl),
          ofKey_accepted_of_untyped gated _ untyped, lastType, coreAfter,
          if_pos rfl]
        rfl
      · rw [Assignments.ofKey_cons_of_ne same] at once
        have core : isCoreNode ((other, data) :: items) =
            isCoreNode items := by
          rw [isCoreNode_eq_any, isCoreNode_eq_any,
            Assignments.ofKey_cons_of_ne same]
        have behind : behindType ((other, data) :: items) =
            behindType items := by
          simp [behindType, same]
        have unchanged : coreAfter false (other, data) = false := if_neg same
        rw [accepted, core, behind, unchanged]
        by_cases passed : other.coreOnly = true
        · rw [if_pos (by simp [passed])]
          exact ih once
        · rw [if_neg (by simp [passed]), Assignments.ofKey_cons_of_ne
            (apart (by simpa using passed))]
          exact ih once

/-- What a `dht` element sets its variable to. -/
def flag (data : List UInt8) : Setting.dht.Value := unsignedShort (atoi data)

/-- The number at the front of the last `dht` element behind the type. -/
def dhtNumber (items : List Content) : Setting.dht.Value :=
  (Assignments.ofKey .dht (behindType items)).getLast?.elim
    (Variables.initial .dht) flag

theorem result_dht (data : List (List UInt8)) (old : Setting.dht.Value) :
    Assignments.result Setting.store .dht data old =
      some (data.getLast?.elim old flag) := by
  induction data generalizing old with
  | nil => rfl
  | cons first rest ih =>
      have stored : Setting.store .dht first old = some (flag first) := rfl
      rw [Assignments.result_cons, stored, Option.bind_some, ih,
        List.getLast?_cons]
      cases rest.getLast? with
      | none => rfl
      | some last => rfl

theorem exists_store_iff (setting : Setting) (data : List UInt8)
    (old : setting.Value) :
    (∃ value, setting.store data old = some value) ↔
      (setting = .primaryIface → data.length < 32) := by
  by_cases interface : setting = .primaryIface
  · subst setting
    have fits :
        (∃ next, (Buffer.zero 32).write 0 (data ++ [0]) = some next) ↔
          0 + (data ++ [0]).length ≤ 32 := Buffer.write_isSome_iff
    rw [List.length_append, List.length_singleton] at fits
    rw [Setting.store]
    simp only [forall_const]
    exact fits.trans (by omega)
  · apply iff_of_true
    · cases setting with
      | primaryIface => exact absurd rfl interface
      | _ => exact ⟨_, rfl⟩
    · intro same
      exact absurd same interface

/-- A setting with one content at most is stored alike by two runs, each of
which may have passed over it, if both do the same or if it is stored as what
was there before. -/
theorem same_result_iff {setting : Setting} {left right all : List (List UInt8)}
    {old : setting.Value} (once : all.length ≤ 1)
    (fits : setting ≠ .primaryIface)
    (leftOf : left.Sublist all) (rightOf : right.Sublist all) :
    (∃ value,
      Assignments.result Setting.store setting left old = some value ∧
      Assignments.result Setting.store setting right old = some value) ↔
    ∀ data ∈ all, (data ∈ left ↔ data ∈ right) ∨
      setting.store data old = some old := by
  match all, once with
  | [], _ =>
      rw [List.sublist_nil.mp leftOf, List.sublist_nil.mp rightOf]
      exact iff_of_true ⟨old, rfl, rfl⟩ (by simp)
  | [data], _ =>
      obtain ⟨value, stored⟩ := (exists_store_iff setting data old).mpr
        (fun same => absurd same fits)
      have single : Assignments.result Setting.store setting [data] old =
          some value := by
        rw [Assignments.result_cons, stored]
        rfl
      have empty : Assignments.result Setting.store setting [] old =
          some old := rfl
      rcases List.sublist_singleton.mp leftOf with rfl | rfl <;>
        rcases List.sublist_singleton.mp rightOf with rfl | rfl
      · simp [empty]
      · simp [empty, single, stored, eq_comm]
      · simp [empty, single, stored, eq_comm]
      · simp [single]

theorem exists_result_iff {setting : Setting} {all : List (List UInt8)}
    (old : setting.Value) (once : all.length ≤ 1) :
    (∃ value,
      Assignments.result Setting.store setting all old = some value) ↔
    ∀ data ∈ all, setting = .primaryIface → data.length < 32 := by
  match all, once with
  | [], _ => exact iff_of_true ⟨old, rfl⟩ (by simp)
  | [data], _ =>
      rw [Assignments.result_cons]
      have last : ∀ value : setting.Value,
          Assignments.result Setting.store setting [] value =
            some value := fun _ => rfl
      simp only [Option.bind_eq_some_iff, last, Option.some.injEq,
        exists_eq_right, List.mem_singleton, forall_eq]
      exact exists_store_iff setting data old

/-- What is known of the elements without the order of their children. -/
def labels (document : List XmlNode) : List XmlNode.Label :=
  (XmlNode.elements document).map XmlNode.label

def settings (document : List XmlNode) : List Content :=
  contents (XmlNode.elements document)

/-- A `dht` element which holds other elements. -/
def isDhtSection (item : XmlNode.Label) : Bool :=
  Setting.ofName item.name = some .dht && item.isSection

def isValueOf (setting : Setting) (item : XmlNode.Label) : Bool :=
  Setting.ofName item.name = some setting && !isDhtSection item

/-- Every element of a setting carries text, and there is one at most, but for
the sections. -/
structure Proper (document : List XmlNode) : Prop where
  carriesText : ∀ item ∈ labels document, ∀ setting,
    isValueOf setting item = true → item.lead ≠ none
  once : ∀ setting,
    ((labels document).filter (isValueOf setting)).length ≤ 1

theorem Proper.reordered {left right : List XmlNode} (proper : Proper left)
    (order : XmlNode.Reordered left right) : Proper right := by
  have perm : (labels left).Perm (labels right) := order.perm
  constructor
  · intro item member
    exact proper.carriesText item (perm.mem_iff.mpr member)
  · intro setting
    rw [← (perm.filter (isValueOf setting)).length_eq]
    exact proper.once setting

theorem content_of_lead {children : List XmlNode} {data : List UInt8}
    (lead : XmlNode.lead children = some data) :
    xmlNodeGetContent children = some data := by
  cases children with
  | nil => cases lead
  | cons node rest =>
      rw [XmlNode.lead] at lead
      split at lead
      · cases lead
      · exact lead

theorem Proper.present {document : List XmlNode} (proper : Proper document) :
    Present (XmlNode.elements document) := by
  intro item member known missing
  obtain ⟨setting, name⟩ := Option.ne_none_iff_exists'.mp known
  have nothing : item.2 = [] := by
    cases children : item.2 with
    | nil => rfl
    | cons node rest =>
        rw [children] at missing
        cases missing
  have value : isValueOf setting (XmlNode.label item) = true := by
    simp [isValueOf, isDhtSection, XmlNode.label, name, nothing,
      XmlNode.isSection]
  apply proper.carriesText _ (List.mem_map_of_mem member) setting value
  rw [XmlNode.label, nothing]
  rfl

/-- The contents of a setting other than `dht` do not depend on what is inside
its elements but for the text at the front. -/
theorem ofKey_settings {document : List XmlNode} (proper : Proper document)
    {setting : Setting} (value : setting ≠ .dht) :
    Assignments.ofKey setting (settings document) =
      ((labels document).filter (isValueOf setting)).filterMap
        XmlNode.Label.lead := by
  rw [Assignments.ofKey, settings, contents, List.filterMap_filterMap,
    List.filterMap_filter, labels, List.filterMap_map]
  apply List.filterMap_congr
  intro item member
  rw [Function.comp_apply]
  have named : isValueOf setting (XmlNode.label item) =
      decide (Setting.ofName item.1 = some setting) := by
    rw [isValueOf, isDhtSection, XmlNode.label]
    by_cases name : Setting.ofName item.1 = some setting
    · simp [name, value]
    · simp [name]
  rw [named]
  by_cases name : Setting.ofName item.1 = some setting
  · have text := proper.carriesText _ (List.mem_map_of_mem member) setting
      (by simp [named, name])
    obtain ⟨data, lead⟩ := Option.ne_none_iff_exists'.mp text
    rw [lead, name]
    have content : xmlNodeGetContent item.2 = some data :=
      content_of_lead lead
    simp [content]
  · rw [decide_eq_false name, if_neg Bool.false_ne_true]
    cases other : Setting.ofName item.1 with
    | none => rfl
    | some found =>
        have different : found ≠ setting := by
          intro same
          rw [other, same] at name
          exact name rfl
        cases content : xmlNodeGetContent item.2 with
        | none => rfl
        | some data => simp [different]

/-- There is one content at most of a setting other than `dht`. -/
theorem length_ofKey_settings {document : List XmlNode}
    (proper : Proper document) {setting : Setting} (value : setting ≠ .dht) :
    (Assignments.ofKey setting (settings document)).length ≤ 1 := by
  rw [ofKey_settings proper value]
  exact (List.length_filterMap_le _ _).trans (proper.once setting)

/-- A document, and what it becomes when siblings change places. -/
structure Reordering where
  left : List XmlNode
  right : List XmlNode
  order : XmlNode.Reordered left right
  proper : Proper left

namespace Reordering

theorem ofKey_eq (pair : Reordering) {setting : Setting}
    (value : setting ≠ .dht) :
    Assignments.ofKey setting (settings pair.left) =
      Assignments.ofKey setting (settings pair.right) := by
  apply eq_of_perm_of_length_le_one _ (length_ofKey_settings pair.proper value)
  rw [ofKey_settings pair.proper value,
    ofKey_settings (pair.proper.reordered pair.order) value]
  have perm : (labels pair.left).Perm (labels pair.right) := pair.order.perm
  exact (perm.filter (isValueOf setting)).filterMap _

theorem isCoreNode_eq (pair : Reordering) :
    isCoreNode (settings pair.left) = isCoreNode (settings pair.right) := by
  rw [isCoreNode_eq_any, isCoreNode_eq_any, pair.ofKey_eq (by decide)]

/-- The order makes no difference: the name of the interface has room; and on a
core node, a setting of the DHT is behind the type in both documents or in
neither, or it is no other value than the variable has at the start, and the
last `dht` element behind the type has the same number at its front. -/
structure Unaffected (pair : Reordering) : Prop where
  interface : ∀ data, (Setting.primaryIface, data) ∈ settings pair.left →
    data.length < 32
  behind : isCoreNode (settings pair.left) = true →
    ∀ setting, setting.coreOnly = true → setting ≠ .dht →
    ∀ data, (setting, data) ∈ settings pair.left →
      ((setting, data) ∈ behindType (settings pair.left) ↔
        (setting, data) ∈ behindType (settings pair.right)) ∨
      setting.store data (Variables.initial setting) =
        some (Variables.initial setting)
  dht : isCoreNode (settings pair.left) = true →
    dhtNumber (settings pair.left) = dhtNumber (settings pair.right)

end Reordering

/-- `read_config` gets to its end and leaves the same in all variables. -/
def SameConfig (left right : List XmlNode) : Prop :=
  ∃ vars, readConfig left = some vars ∧ readConfig right = some vars

theorem readConfig_eq {document : List XmlNode} (proper : Proper document) :
    readConfig document =
      (accepted false (settings document)).foldlM
        (Assignments.assign Setting.store) Variables.initial := by
  rw [readConfig, getData_eq, foldlM_readElement proper.present,
    foldlM_readContent]
  rfl

namespace Reordering

/-- A setting has the same value after both documents. -/
def Agrees (pair : Reordering) (setting : Setting) : Prop :=
  ∃ value,
    Assignments.result Setting.store setting
        (Assignments.ofKey setting (accepted false (settings pair.left)))
        (Variables.initial setting) = some value ∧
    Assignments.result Setting.store setting
        (Assignments.ofKey setting (accepted false (settings pair.right)))
        (Variables.initial setting) = some value

theorem sameConfig_iff (pair : Reordering) :
    SameConfig pair.left pair.right ↔ ∀ setting, pair.Agrees setting := by
  rw [SameConfig, readConfig_eq pair.proper,
    readConfig_eq (pair.proper.reordered pair.order)]
  exact Assignments.same_foldlM_iff _ _ _ _

theorem agrees_of_free (pair : Reordering) {setting : Setting}
    (free : setting.coreOnly = false) :
    pair.Agrees setting ↔ ∀ data, (setting, data) ∈ settings pair.left →
      setting = .primaryIface → data.length < 32 := by
  have value : setting ≠ .dht := by
    intro same
    rw [same] at free
    cases free
  rw [Agrees, ofKey_accepted_of_free free, ofKey_accepted_of_free free,
    ← pair.ofKey_eq value]
  simp only [and_self]
  rw [exists_result_iff _ (length_ofKey_settings pair.proper value)]
  simp only [Assignments.mem_ofKey]

theorem agrees_of_gated (pair : Reordering) {setting : Setting}
    (gated : setting.coreOnly = true) :
    pair.Agrees setting ↔ (isCoreNode (settings pair.left) = true →
      ∃ value,
        Assignments.result Setting.store setting
            (Assignments.ofKey setting (behindType (settings pair.left)))
            (Variables.initial setting) = some value ∧
        Assignments.result Setting.store setting
            (Assignments.ofKey setting (behindType (settings pair.right)))
            (Variables.initial setting) = some value) := by
  have typeOnce := length_ofKey_settings pair.proper
    (show Setting.type ≠ .dht by decide)
  have typeOnce' := length_ofKey_settings
    (pair.proper.reordered pair.order)
    (show Setting.type ≠ .dht by decide)
  rw [Agrees, ofKey_accepted_of_gated gated typeOnce,
    ofKey_accepted_of_gated gated typeOnce', ← pair.isCoreNode_eq]
  cases isCoreNode (settings pair.left) with
  | true => simp
  | false =>
      simp only [Bool.false_eq_true, if_false, false_implies, iff_true]
      exact ⟨_, rfl, rfl⟩

theorem ofKey_behindType_sublist (setting : Setting) (items : List Content) :
    (Assignments.ofKey setting (behindType items)).Sublist
      (Assignments.ofKey setting items) := by
  apply List.Sublist.filterMap
  exact (List.tail_sublist _).trans (List.dropWhile_sublist _)

theorem agrees_of_value (pair : Reordering) {setting : Setting}
    (gated : setting.coreOnly = true) (value : setting ≠ .dht) :
    pair.Agrees setting ↔ (isCoreNode (settings pair.left) = true →
      ∀ data, (setting, data) ∈ settings pair.left →
        ((setting, data) ∈ behindType (settings pair.left) ↔
          (setting, data) ∈ behindType (settings pair.right)) ∨
        setting.store data (Variables.initial setting) =
          some (Variables.initial setting)) := by
  have fits : setting ≠ .primaryIface := by
    intro same
    rw [same] at gated
    cases gated
  have right := ofKey_behindType_sublist setting (settings pair.right)
  rw [← pair.ofKey_eq value] at right
  rw [pair.agrees_of_gated gated,
    same_result_iff (length_ofKey_settings pair.proper value) fits
      (ofKey_behindType_sublist setting (settings pair.left)) right]
  simp only [Assignments.mem_ofKey]

theorem agrees_dht (pair : Reordering) :
    pair.Agrees .dht ↔ (isCoreNode (settings pair.left) = true →
      dhtNumber (settings pair.left) = dhtNumber (settings pair.right)) := by
  rw [pair.agrees_of_gated rfl]
  simp only [result_dht, Option.some.injEq]
  constructor
  · intro same core
    obtain ⟨value, first, second⟩ := same core
    exact first.trans second.symm
  · intro same core
    exact ⟨_, rfl, (same core).symm⟩

end Reordering

/-- Two orders of the same elements leave the same configuration if and only
if the name of the interface fits and nothing which is read behind the type of
a core node changes. -/
theorem sameConfig_iff_unaffected (pair : Reordering) :
    SameConfig pair.left pair.right ↔ pair.Unaffected := by
  rw [pair.sameConfig_iff]
  constructor
  · intro agrees
    constructor
    · intro data member
      exact (pair.agrees_of_free rfl).mp (agrees .primaryIface) data member rfl
    · intro core setting gated value data member
      exact (pair.agrees_of_value gated value).mp (agrees setting) core data
        member
    · exact pair.agrees_dht.mp (agrees .dht)
  · intro unaffected setting
    by_cases free : setting.coreOnly = false
    · apply (pair.agrees_of_free free).mpr
      intro data member same
      subst setting
      exact unaffected.interface data member
    · have gated : setting.coreOnly = true := by simpa using free
      by_cases value : setting = .dht
      · subst setting
        exact pair.agrees_dht.mpr unaffected.dht
      · apply (pair.agrees_of_value gated value).mpr
        intro core data member
        exact unaffected.behind core setting gated value data member

def typeElement : XmlNode := .element "type" [.text [51]]

def dhtPortElement : XmlNode := .element "dhtPort" [.text [51, 54, 51, 50]]

/-- A core node whose port of the DHT stands behind the type or in front. -/
def portMoved : Reordering where
  left := [.element "configuration" [typeElement, dhtPortElement]]
  right := [.element "configuration" [dhtPortElement, typeElement]]
  order := .inside "configuration" [] [] (.swap [] [] [] rfl rfl)
  proper := by
    constructor
    · intro item member setting
      revert item
      cases setting <;> decide
    · intro setting
      cases setting <;> decide

def readPort (document : List XmlNode) : Option UInt16 :=
  (readConfig document).map fun vars => vars .dhtPort

/-- In front of the type the port is passed over. -/
theorem not_sameConfig :
    ¬ ∀ pair : Reordering, SameConfig pair.left pair.right := by
  intro same
  obtain ⟨vars, behind, before⟩ := same portMoved
  have port : readPort portMoved.left = some 3632 := by decide
  have none : readPort portMoved.right = some 0 := by decide
  rw [readPort, behind] at port
  rw [readPort, before, port] at none
  cases none

-- a section behind the flag turns it off
example :
    (readConfig [.element "configuration"
      [typeElement, .element "dht" [.text [49]],
        .element "dht" [.text [10], dhtPortElement]]]).map
      (fun vars => (vars .dht : UInt16)) = some 0 := by decide

end NodeIdentity
