import DbdkyGcc.Config.Update
import DbdkyGcc.Foundations.LastWins

/-!
# The settings that a configuration file gives

A setting has the value of its last item that converts. `updateConfigs` gives it that value when
it comes past all items, which it does not behind a comment; and the time of the last upload is
taken from a variable that is never assigned.
-/

namespace DbdkyGcc.Config

open Foundations Device

/-- The members of `ConfUtil`. -/
inductive Setting
  | systemTick
  | heartBeatTick
  | uploadMoniDataTick
  | dbPath
  | dbUser
  | dbPasswd
  | dbName
  | cmaid
  | localIP
  | proxyIP
  | proxyPort
  | lastUploadTime
deriving DecidableEq

namespace Setting

def itemName : Setting → String
  | systemTick => "system_tick"
  | heartBeatTick => "heartbeat_tick"
  | uploadMoniDataTick => "uploadmonidata_tick"
  | dbPath => "db_path"
  | dbUser => "db_user"
  | dbPasswd => "db_passwd"
  | dbName => "db_name"
  | cmaid => "cmaid"
  | localIP => "local_ip"
  | proxyIP => "proxy_ip"
  | proxyPort => "proxy_port"
  | lastUploadTime => "last_upload"

abbrev Value : Setting → Type
  | systemTick | proxyPort => UInt16
  | heartBeatTick | uploadMoniDataTick => UInt32
  | lastUploadTime => UInt64
  | _ => String

/-- The conversion of a text to the type of the setting. -/
def convert (boost : LexicalCast) : (k : Setting) → String → Option k.Value
  | systemTick | proxyPort => boost.uint16
  | heartBeatTick | uploadMoniDataTick => boost.uint32
  | lastUploadTime => boost.uint64
  | dbPath | dbUser | dbPasswd | dbName | cmaid | localIP | proxyIP => some

instance (k : Setting) : DecidableEq k.Value := by
  cases k <;> (unfold Value; infer_instance)

end Setting

def ConfUtil.get (c : ConfUtil) : (k : Setting) → k.Value
  | .systemTick => c.systemTick
  | .heartBeatTick => c.heartBeatTick
  | .uploadMoniDataTick => c.uploadMoniDataTick
  | .dbPath => c.dbPath
  | .dbUser => c.dbUser
  | .dbPasswd => c.dbPasswd
  | .dbName => c.dbName
  | .cmaid => c.cmaid
  | .localIP => c.localIP
  | .proxyIP => c.proxyIP
  | .proxyPort => c.proxyPort
  | .lastUploadTime => c.lastUploadTime

/-- A configuration with given settings. -/
def ConfUtil.of (value : (k : Setting) → k.Value) : ConfUtil where
  systemTick := value .systemTick
  heartBeatTick := value .heartBeatTick
  uploadMoniDataTick := value .uploadMoniDataTick
  dbPath := value .dbPath
  dbUser := value .dbUser
  dbPasswd := value .dbPasswd
  dbName := value .dbName
  cmaid := value .cmaid
  localIP := value .localIP
  proxyIP := value .proxyIP
  proxyPort := value .proxyPort
  lastUploadTime := value .lastUploadTime

theorem ConfUtil.get_of (value : (k : Setting) → k.Value) (k : Setting) :
    (ConfUtil.of value).get k = value k := by
  cases k <;> rfl

/-- An item: its name and its value. -/
abbrev Item : Type := String × String

def itemOf (n : XmlNode) : Item := (n.attrD "name", n.attrD "value")

variable {boost : LexicalCast} {tmpLastUpload : UInt64}

/-- What an item says of a setting. -/
def Setting.given (boost : LexicalCast) (k : Setting) (item : Item) : Option k.Value :=
  if item.1 = k.itemName then k.convert boost item.2 else none

/-- What `setItem` puts in its place. -/
def Setting.stored (boost : LexicalCast) (tmpLastUpload : UInt64) (k : Setting) (item : Item) :
    Option k.Value :=
  match k with
  | .lastUploadTime => (given boost .lastUploadTime item).map fun _ => tmpLastUpload
  | k => given boost k item

theorem get_setItem_self (c : ConfUtil) (value : String) (k : Setting) :
    (setItem boost tmpLastUpload c k.itemName value).get k =
      (k.stored boost tmpLastUpload (k.itemName, value)).getD (c.get k) := by
  cases k with
  | lastUploadTime =>
    simp only [setItem, Setting.stored, Setting.given, Setting.itemName, Setting.convert,
      ConfUtil.get, reduceIte, String.reduceEq]
    cases boost.uint64 value <;> rfl
  | _ =>
    simp only [setItem, Setting.stored, Setting.given, Setting.itemName, Setting.convert,
      ConfUtil.get, reduceIte, String.reduceEq, Option.getD_some]

theorem get_setItem_of_ne (c : ConfUtil) {name : String} (value : String) {k : Setting}
    (h : name ≠ k.itemName) : (setItem boost tmpLastUpload c name value).get k = c.get k := by
  simp only [setItem, apply_ite (fun c => ConfUtil.get c k)]
  cases k <;>
    (simp only [Setting.itemName] at h
     simp only [ConfUtil.get, if_neg h, ite_self])

/-- One item changes the setting that it names. -/
theorem get_setItem (c : ConfUtil) (item : Item) (k : Setting) :
    (setItem boost tmpLastUpload c item.1 item.2).get k =
      (k.stored boost tmpLastUpload item).getD (c.get k) := by
  obtain ⟨name, value⟩ := item
  by_cases h : name = k.itemName
  · rw [h]
    exact get_setItem_self c value k
  · rw [get_setItem_of_ne c value h]
    cases k <;> simp [Setting.stored, Setting.given, h]

/-- The nodes that a walk reads as items, where it is left without a fault. From a node that is
no element it goes on with the nodes behind `configs`. -/
def visited (after : List XmlNode) : List XmlNode → Option (List XmlNode)
  | [] => some []
  | n :: rest =>
    if isItem n then (visited after rest).map (n :: ·)
    else if n.isElement then none
    else if after.all isItem then some after else none

/-- The nodes that `updateConfigs` reads as items. -/
def itemNodes (doc : Option XmlDocument) : Option (List XmlNode) :=
  (start doc).elim (some []) fun (inside, after) => visited after inside

/-- The configuration after a walk over the nodes. -/
def setItems (boost : LexicalCast) (tmpLastUpload : UInt64) (nodes : List XmlNode)
    (c : ConfUtil) : ConfUtil :=
  nodes.foldl (fun c n => setItem boost tmpLastUpload c (n.attrD "name") (n.attrD "value")) c

/-- The walk behind `configs` is left with a configuration when it meets items only: from a node
that is no element it begins again. -/
theorem turns_after (after : List XmlNode) (c c' : ConfUtil) :
    (∃ fuel, turns (turn boost tmpLastUpload after) fuel (after, c) = some (.ok c')) ↔
      after.all isItem = true ∧ setItems boost tmpLastUpload after c = c' := by
  cases hstray : meetsStray after with
  | true =>
    have hne := not_ends_of_meetsStray boost tmpLastUpload hstray hstray c
    have hall : after.all isItem ≠ true := by
      intro hall
      rw [List.all_eq_true] at hall
      have hdrop : after.dropWhile isItem = [] := List.dropWhile_eq_nil_iff.mpr hall
      rw [meetsStray, hdrop] at hstray
      cases hstray
    refine iff_of_false ?_ fun h => hall h.1
    rintro ⟨fuel, h⟩
    exact hne ⟨fuel, _, h⟩
  | false =>
    suffices ∀ nodes c, meetsStray nodes = false →
        ((∃ fuel, turns (turn boost tmpLastUpload after) fuel (nodes, c) = some (.ok c')) ↔
          nodes.all isItem = true ∧ setItems boost tmpLastUpload nodes c = c') from
      this after c hstray
    intro nodes
    induction nodes with
    | nil =>
      intro c _
      rw [turns_eq_iff_of_inr (by rfl)]
      simp [setItems]
    | cons n rest ih =>
      intro c hnodes
      rw [meetsStray_cons] at hnodes
      by_cases hn : isItem n = true
      · rw [if_pos hn] at hnodes
        rw [turns_eq_iff_of_inl (turn_item boost tmpLastUpload after hn rest c), ih _ hnodes,
          List.all_cons, hn, Bool.true_and, setItems, setItems, List.foldl_cons]
      · rw [if_neg hn, Bool.not_eq_false'] at hnodes
        obtain ⟨e, hfault⟩ := turn_fault boost tmpLastUpload after hnodes hn rest c
        rw [turns_eq_iff_of_inr hfault]
        simp [hn]

theorem turns_visited (after nodes : List XmlNode) (c c' : ConfUtil) :
    (∃ fuel, turns (turn boost tmpLastUpload after) fuel (nodes, c) = some (.ok c')) ↔
      ∃ l, visited after nodes = some l ∧ setItems boost tmpLastUpload l c = c' := by
  induction nodes generalizing c with
  | nil =>
    rw [turns_eq_iff_of_inr (by rfl)]
    simp [visited, setItems]
  | cons n rest ih =>
    rw [visited]
    by_cases hn : isItem n = true
    · rw [turns_eq_iff_of_inl (turn_item boost tmpLastUpload after hn rest c), ih, if_pos hn]
      simp only [Option.map_eq_some_iff, exists_exists_and_eq_and, setItems, List.foldl_cons]
    · rw [if_neg hn]
      by_cases he : n.isElement = true
      · obtain ⟨e, hfault⟩ := turn_fault boost tmpLastUpload after he hn rest c
        rw [turns_eq_iff_of_inr hfault, if_pos he]
        simp
      · rw [turns_eq_iff_of_inl (turn_stray boost tmpLastUpload after he rest c), turns_after,
          if_neg he]
        by_cases hall : after.all isItem = true
        · simp [hall]
        · simp [hall]

/-- `updateConfigs` returns with the items of `itemNodes`, one after the other. -/
theorem updateConfigs_eq_iff (doc : Option XmlDocument) (c c' : ConfUtil) :
    (∃ fuel, updateConfigs boost tmpLastUpload fuel doc c = some (.ok c')) ↔
      ∃ l, itemNodes doc = some l ∧ setItems boost tmpLastUpload l c = c' := by
  unfold updateConfigs itemNodes
  cases start doc with
  | none => simp [setItems]
  | some walk => exact turns_visited walk.2 walk.1 c c'

/-- The value that a list of items gives to a setting: the one of its last item that converts. -/
def Setting.lastValue (boost : LexicalCast) (k : Setting) (items : List Item) : Option k.Value :=
  lastSome (k.given boost) items

/-- The items of the `configs` element. -/
def items (doc : Option XmlDocument) : List Item :=
  ((doc.getD []).find? fun n => n.isElement && n.value = "configs").elim [] fun element =>
    (element.children.filter fun n => isItem n && n.value = "item").map itemOf

theorem get_setItems (nodes : List XmlNode) (c : ConfUtil) (k : Setting) :
    (setItems boost tmpLastUpload nodes c).get k =
      (lastSome (k.stored boost tmpLastUpload) (nodes.map itemOf)).getD (c.get k) := by
  have h := @foldl_override _ _ _ (k.stored boost tmpLastUpload) (fun c => ConfUtil.get c k)
    (fun c item => setItem boost tmpLastUpload c item.1 item.2) (fun c item => get_setItem c item k)
    (nodes.map itemOf) c
  rwa [List.foldl_map] at h

theorem lastSome_stored {k : Setting} (h : k ≠ .lastUploadTime) (l : List Item) :
    lastSome (k.stored boost tmpLastUpload) l = k.lastValue boost l := by
  cases k <;> first | rfl | exact absurd rfl h

theorem lastSome_stored_lastUploadTime (l : List Item) :
    lastSome (Setting.stored boost tmpLastUpload .lastUploadTime) l =
      (Setting.lastValue boost .lastUploadTime l).map fun _ => tmpLastUpload :=
  lastSome_map_value _ l

/-- What does not depend on the variable that is never assigned comes from no item. -/
theorem lastValue_lastUploadTime_eq_none {l : List Item}
    (h : lastSome (Setting.stored boost 0 .lastUploadTime) l =
      lastSome (Setting.stored boost 1 .lastUploadTime) l) :
    Setting.lastValue boost .lastUploadTime l = none := by
  rw [lastSome_stored_lastUploadTime, lastSome_stored_lastUploadTime] at h
  cases hv : Setting.lastValue boost .lastUploadTime l with
  | none => rfl
  | some v =>
    rw [hv] at h
    cases h

instance (k : Setting) : Nontrivial k.Value := by
  cases k <;> first
    | exact ⟨(0 : UInt16), 1, by decide⟩
    | exact ⟨(0 : UInt32), 1, by decide⟩
    | exact ⟨(0 : UInt64), 1, by decide⟩
    | exact ⟨"", "a", by decide⟩

/-- Every value of a setting is the value in some configuration. -/
theorem ConfUtil.get_surjective (k : Setting) : Function.Surjective fun c => ConfUtil.get c k := by
  intro x
  refine ⟨.of (Function.update (ConfUtil.default 0).get k x), ?_⟩
  simp only [ConfUtil.get_of, Function.update_self]

/-- Each setting has the value of its last item in `configs`, whatever the memory held before,
exactly when no item of `last_upload` converts and the nodes that the walk reads give the settings
the same values as the items of `configs` do. -/
theorem updateConfigs_reads_last_items_iff (boost : LexicalCast) (doc : Option XmlDocument) :
    (∀ tmpLastUpload c, ∃ fuel c',
        updateConfigs boost tmpLastUpload fuel doc c = some (.ok c') ∧
        ∀ k, c'.get k = (k.lastValue boost (items doc)).getD (c.get k)) ↔
      Setting.lastValue boost .lastUploadTime (items doc) = none ∧
      ∃ l, itemNodes doc = some l ∧
        ∀ k, Setting.lastValue boost k (l.map itemOf) = k.lastValue boost (items doc) := by
  constructor
  · intro h
    have hwalk : ∀ (tmpLastUpload : UInt64) (c : ConfUtil), ∃ l, itemNodes doc = some l ∧
        ∀ k : Setting, (lastSome (k.stored boost tmpLastUpload) (l.map itemOf)).getD (c.get k) =
          (k.lastValue boost (items doc)).getD (c.get k) := by
      intro tmpLastUpload c
      obtain ⟨fuel, c', hread, hget⟩ := h tmpLastUpload c
      obtain ⟨l, hl, rfl⟩ := (updateConfigs_eq_iff doc c c').mp ⟨fuel, hread⟩
      exact ⟨l, hl, fun k => (get_setItems l c k).symm.trans (hget k)⟩
    obtain ⟨l, hl, -⟩ := hwalk 0 (.default 0)
    have hstored : ∀ tmpLastUpload (k : Setting),
        lastSome (k.stored boost tmpLastUpload) (l.map itemOf) =
          k.lastValue boost (items doc) := by
      intro tmpLastUpload k
      refine eq_of_forall_getD fun x => ?_
      obtain ⟨c, rfl⟩ := ConfUtil.get_surjective k x
      obtain ⟨l', hl', hget⟩ := hwalk tmpLastUpload c
      obtain rfl : l = l' := Option.some.inj (hl.symm.trans hl')
      exact hget k
    have hnone := lastValue_lastUploadTime_eq_none
      ((hstored 0 .lastUploadTime).trans (hstored 1 .lastUploadTime).symm)
    have h0 := hstored 0 .lastUploadTime
    rw [lastSome_stored_lastUploadTime, hnone] at h0
    refine ⟨h0.symm, l, hl, fun k => ?_⟩
    by_cases hk : k = .lastUploadTime
    · subst hk
      rw [hnone]
      exact h0
    · rw [← lastSome_stored hk, hstored 0 k]
  · rintro ⟨hnone, l, hl, hvalue⟩ tmpLastUpload c
    obtain ⟨fuel, hread⟩ : ∃ fuel, updateConfigs boost tmpLastUpload fuel doc c =
        some (.ok (setItems boost tmpLastUpload l c)) :=
      (updateConfigs_eq_iff doc c _).mpr ⟨l, hl, rfl⟩
    refine ⟨fuel, _, hread, fun k => ?_⟩
    rw [get_setItems]
    by_cases hk : k = .lastUploadTime
    · subst hk
      rw [lastSome_stored_lastUploadTime, hvalue, hnone]
      rfl
    · rw [lastSome_stored hk, hvalue]

/-- Decimal digits of a number below `bound`. -/
def decimalBelow (bound : Nat) (text : String) : Option Nat :=
  let n := text.toList.foldl (fun n digit => 10 * n + (digit.toNat - 48)) 0
  if text ≠ "" ∧ text.toList.all Char.isDigit ∧ n < bound then some n else none

/-- Conversions to evaluate the model with: those of digits without a sign. -/
def LexicalCast.digits : LexicalCast where
  uint16 text := (decimalBelow (2 ^ 16) text).map .ofNat
  uint32 text := (decimalBelow (2 ^ 32) text).map .ofNat
  uint64 text := (decimalBelow (2 ^ 64) text).map .ofNat

/-- Behind a comment, the name of the database is not read; and the time of the last upload is
not the one that stands in the file. -/
theorem updateConfigs_drops_item_behind_comment :
    let doc : XmlDocument := [.element "configs" []
      [.element "item" [("name", "last_upload"), ("value", "1378782958537087")] [],
        .comment " the database ",
        .element "item" [("name", "db_name"), ("value", "vmsdb")] []]]
    ∃ c', updateConfigs .digits 7 3 (some doc) (.default 0) = some (.ok c') ∧
      c'.dbName = "omsdb" ∧ Setting.lastValue .digits .dbName (items (some doc)) = some "vmsdb" ∧
      c'.lastUploadTime = 7 ∧
      Setting.lastValue .digits .lastUploadTime (items (some doc)) = some 1378782958537087 := by
  intro doc
  exact ⟨{ ConfUtil.default 0 with lastUploadTime := 7 }, by rfl, rfl, by decide +kernel, rfl,
    by decide +kernel⟩

end DbdkyGcc.Config
