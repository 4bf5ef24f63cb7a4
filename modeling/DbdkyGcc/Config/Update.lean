import DbdkyGcc.Foundations.Loops
import DbdkyGcc.Device.Xml

/-!
# The configuration file

`ConfUtil::updateConfigs` walks over the nodes of the `configs` element from the first one
named `item`. A node that is no element sends it to the node behind `configs` itself, and
the walk goes on from there.
-/

namespace DbdkyGcc.Config

open Foundations Device

/-- `boost::lexical_cast`, with no value where it throws `bad_lexical_cast`. -/
structure LexicalCast where
  uint16 : String → Option UInt16
  uint32 : String → Option UInt32
  uint64 : String → Option UInt64

structure ConfUtil where
  systemTick : UInt16
  heartBeatTick : UInt32
  uploadMoniDataTick : UInt32
  dbPath : String
  dbUser : String
  dbPasswd : String
  dbName : String
  cmaid : String
  localIP : String
  proxyIP : String
  proxyPort : UInt16
  lastUploadTime : UInt64

/-- The defaults of the constructor; the time of the last upload is the current one. -/
def ConfUtil.default (now : UInt64) : ConfUtil where
  systemTick := 1
  heartBeatTick := 2
  uploadMoniDataTick := 3
  dbPath := "tcp://127.0.0.1:3306"
  dbUser := "root"
  dbPasswd := "kevinLike$"
  dbName := "omsdb"
  cmaid := "22M00000022376016"
  localIP := "127.0.0.1"
  proxyIP := "127.0.0.1"
  proxyPort := 6000
  lastUploadTime := now

section Walk

variable (boost : LexicalCast) (tmpLastUpload : UInt64)

/-- One item of the file. A value that does not parse leaves its field alone, and so does an
unknown name. The variable that `last_upload` ends up with is never assigned. -/
def setItem (c : ConfUtil) (itemName itemValue : String) : ConfUtil :=
  if itemName = "local_ip" then { c with localIP := itemValue }
  else if itemName = "proxy_ip" then { c with proxyIP := itemValue }
  else if itemName = "proxy_port" then
    { c with proxyPort := (boost.uint16 itemValue).getD c.proxyPort }
  else if itemName = "system_tick" then
    { c with systemTick := (boost.uint16 itemValue).getD c.systemTick }
  else if itemName = "heartbeat_tick" then
    { c with heartBeatTick := (boost.uint32 itemValue).getD c.heartBeatTick }
  else if itemName = "uploadmonidata_tick" then
    { c with uploadMoniDataTick := (boost.uint32 itemValue).getD c.uploadMoniDataTick }
  else if itemName = "db_path" then { c with dbPath := itemValue }
  else if itemName = "db_user" then { c with dbUser := itemValue }
  else if itemName = "db_passwd" then { c with dbPasswd := itemValue }
  else if itemName = "db_name" then { c with dbName := itemValue }
  else if itemName = "cmaid" then { c with cmaid := itemValue }
  else if itemName = "last_upload" then
    { c with lastUploadTime :=
        if (boost.uint64 itemValue).isSome then tmpLastUpload else c.lastUploadTime }
  else c

/-- The body of the loop for an element. -/
def readItem (inside : XmlNode) (c : ConfUtil) : Except NullAccess ConfUtil := do
  let itemName ← inside.attr "name"
  let itemValue ← inside.attr "value"
  return setItem boost tmpLastUpload c itemName itemValue

/-- One turn of the loop, at the node `inside` with the nodes behind it. Behind the `configs`
element stand the nodes `after`. -/
def turn (after : List XmlNode) :
    List XmlNode × ConfUtil → (List XmlNode × ConfUtil) ⊕ Except NullAccess ConfUtil
  | ([], c) => .inr (.ok c)
  | (inside :: rest, c) =>
    if inside.isElement then
      match readItem boost tmpLastUpload inside c with
      | .ok c' => .inl (rest, c')
      | .error e => .inr (.error e)
    else .inl (after, c)

/-- Where the walk begins, and the nodes behind `configs`; nothing where the file cannot be
opened or has no such element. -/
def start (doc : Option XmlDocument) : Option (List XmlNode × List XmlNode) := do
  let nodes ← doc
  let (element, after) ← XmlNode.firstChild nodes "configs"
  return (element.children.dropWhile fun n => n.value ≠ "item", after)

/-- `updateConfigs`, as far as `fuel` turns of its loop go. -/
def updateConfigs (fuel : Nat) (doc : Option XmlDocument) (c : ConfUtil) :
    Option (Except NullAccess ConfUtil) :=
  (start doc).elim (some (.ok c)) fun (inside, after) =>
    turns (turn boost tmpLastUpload after) fuel (inside, c)

/-- An element with the two attributes of an item. -/
def isItem (n : XmlNode) : Bool :=
  n.isElement && (n.getAttribute "name").isSome && (n.getAttribute "value").isSome

/-- The first of the nodes that is no readable item is no element at all. -/
def meetsStray (nodes : List XmlNode) : Bool :=
  (nodes.dropWhile isItem).head?.any fun n => !n.isElement

theorem meetsStray_cons (n : XmlNode) (rest : List XmlNode) :
    meetsStray (n :: rest) = if isItem n then meetsStray rest else !n.isElement := by
  rw [meetsStray, List.dropWhile_cons]
  split
  · rfl
  · rfl

theorem readItem_guarded (n : XmlNode) (c : ConfUtil) :
    Guarded (readItem boost tmpLastUpload n c) (isItem n = true)
      (setItem boost tmpLastUpload c (n.attrD "name") (n.attrD "value")) := by
  have hvalue := (n.attr_guarded "value").bind (k := fun itemValue =>
    .ok (setItem boost tmpLastUpload c (n.attrD "name") itemValue)) fun _ => Guarded.ok _
  refine ((n.attr_guarded "name").bind fun _ => hvalue).congr ?_
  simp only [isItem, Bool.and_eq_true]
  tauto

theorem turn_item (after : List XmlNode) {n : XmlNode} (h : isItem n = true)
    (rest : List XmlNode) (c : ConfUtil) :
    turn boost tmpLastUpload after (n :: rest, c) =
      .inl (rest, setItem boost tmpLastUpload c (n.attrD "name") (n.attrD "value")) := by
  have he : n.isElement = true := by
    simp only [isItem, Bool.and_eq_true] at h
    exact h.1.1
  rw [turn, if_pos he, (readItem_guarded boost tmpLastUpload n c).1 h]

theorem turn_fault (after : List XmlNode) {n : XmlNode} (he : n.isElement = true)
    (h : ¬isItem n = true) (rest : List XmlNode) (c : ConfUtil) :
    ∃ e, turn boost tmpLastUpload after (n :: rest, c) = .inr (.error e) := by
  obtain ⟨e, hread⟩ := (readItem_guarded boost tmpLastUpload n c).2 h
  exact ⟨e, by rw [turn, if_pos he, hread]⟩

theorem turn_stray (after : List XmlNode) {n : XmlNode} (he : ¬n.isElement = true)
    (rest : List XmlNode) (c : ConfUtil) :
    turn boost tmpLastUpload after (n :: rest, c) = .inl (after, c) := by
  rw [turn, if_neg he]

/-- A walk that meets no stray node reaches the end of its nodes, or an element it cannot
read. -/
theorem ends_of_not_meetsStray (after : List XmlNode) {nodes : List XmlNode}
    (h : meetsStray nodes = false) (c : ConfUtil) :
    Ends (turn boost tmpLastUpload after) (nodes, c) := by
  induction nodes generalizing c with
  | nil => exact Ends.of_inr rfl
  | cons n rest ih =>
    rw [meetsStray_cons] at h
    by_cases hi : isItem n = true
    · rw [if_pos hi] at h
      exact (ends_iff_of_inl (turn_item boost tmpLastUpload after hi rest c)).mpr (ih h _)
    · rw [if_neg hi, Bool.not_eq_false'] at h
      obtain ⟨e, hturn⟩ := turn_fault boost tmpLastUpload after h hi rest c
      exact Ends.of_inr hturn

/-- A walk that meets a stray node goes on behind `configs`. -/
theorem ends_iff_of_meetsStray (after : List XmlNode) {nodes : List XmlNode}
    (h : meetsStray nodes = true) (c : ConfUtil) :
    ∃ c', Ends (turn boost tmpLastUpload after) (nodes, c) ↔
      Ends (turn boost tmpLastUpload after) (after, c') := by
  induction nodes generalizing c with
  | nil => cases h
  | cons n rest ih =>
    rw [meetsStray_cons] at h
    by_cases hi : isItem n = true
    · rw [if_pos hi] at h
      obtain ⟨c', hc'⟩ := ih h _
      exact ⟨c', (ends_iff_of_inl (turn_item boost tmpLastUpload after hi rest c)).trans hc'⟩
    · rw [if_neg hi, Bool.not_eq_true'] at h
      have he : ¬n.isElement = true := by simp [h]
      exact ⟨c, ends_iff_of_inl (turn_stray boost tmpLastUpload after he rest c)⟩

/-- Stray nodes behind `configs` send the walk there again and again. -/
theorem not_ends_of_meetsStray {after : List XmlNode} (hafter : meetsStray after = true)
    {nodes : List XmlNode} (h : meetsStray nodes = true) (c : ConfUtil) :
    ¬Ends (turn boost tmpLastUpload after) (nodes, c) := by
  refine not_ends_of_closed (C := fun s => meetsStray s.1 = true) ?_ h
  rintro ⟨nodes, c⟩ hnodes
  cases nodes with
  | nil => cases hnodes
  | cons n rest =>
    rw [meetsStray_cons] at hnodes
    by_cases hi : isItem n = true
    · rw [if_pos hi] at hnodes
      exact ⟨_, turn_item boost tmpLastUpload after hi rest c, hnodes⟩
    · rw [if_neg hi, Bool.not_eq_true'] at hnodes
      have he : ¬n.isElement = true := by simp [hnodes]
      exact ⟨_, turn_stray boost tmpLastUpload after he rest c, hafter⟩

/-- The loop is left unless the walk meets a stray node twice: among the nodes of `configs`,
and among the nodes behind it. -/
theorem ends_turn_iff (after nodes : List XmlNode) (c : ConfUtil) :
    Ends (turn boost tmpLastUpload after) (nodes, c) ↔
      ¬(meetsStray nodes = true ∧ meetsStray after = true) := by
  cases hnodes : meetsStray nodes with
  | false => simp [ends_of_not_meetsStray boost tmpLastUpload after hnodes c]
  | true =>
    cases hafter : meetsStray after with
    | false =>
      obtain ⟨c', hc'⟩ := ends_iff_of_meetsStray boost tmpLastUpload after hnodes c
      simp [hc', ends_of_not_meetsStray boost tmpLastUpload after hafter c']
    | true => simp [not_ends_of_meetsStray boost tmpLastUpload hafter hnodes c]

/-- `updateConfigs` terminates on a document exactly when its walk does not meet a node that
is no element both inside `configs` and behind it. -/
theorem updateConfigs_terminates_iff (doc : Option XmlDocument) (c : ConfUtil) :
    (∃ fuel r, updateConfigs boost tmpLastUpload fuel doc c = some r) ↔
      ∀ inside after, start doc = some (inside, after) →
        ¬(meetsStray inside = true ∧ meetsStray after = true) := by
  cases hstart : start doc with
  | none => simp [updateConfigs, hstart]
  | some walk =>
    obtain ⟨inside, after⟩ := walk
    have hends := ends_turn_iff boost tmpLastUpload after inside c
    simpa [updateConfigs, hstart, Ends] using hends

end Walk

/-- The file as it is shipped: twelve items and, still inside `configs`, a comment. -/
def shipped : XmlNode :=
  .element "configs" [] <|
    [("local_ip", "127.0.0.1"), ("proxy_ip", "127.0.0.1"), ("proxy_port", "6001"),
      ("system_tick", "1"), ("heartbeat_tick", "2"), ("uploadmonidata_tick", "3"),
      ("db_path", "tcp://127.0.0.1:3306"), ("db_user", "root"), ("db_passwd", "kevinLike$"),
      ("db_name", "vmsdb"), ("cmaid", "22M00000022376016"),
      ("last_upload", "1378782958537087")].map
        (fun item => .element "item" [("name", item.1), ("value", item.2)] []) ++
      [.comment "<item name=\"last_upload\" value=\"1378782958537087\" />"]

/-- One more comment at the very end of the shipped file, and the loop is never left. -/
theorem updateConfigs_hangs_on_trailing_comment :
    ¬∃ fuel r, updateConfigs
      ⟨fun v => v.toNat?.map .ofNat, fun v => v.toNat?.map .ofNat, fun v => v.toNat?.map .ofNat⟩ 0
      fuel (some [.other "xml version=\"1.0\" encoding=\"utf-8\"", shipped, .comment " end "])
      (.default 0) = some r := by
  have hinside : meetsStray shipped.children = true := by decide +kernel
  have hafter : meetsStray [.comment " end "] = true := by decide +kernel
  rintro ⟨fuel, r, hr⟩
  exact not_ends_of_meetsStray _ 0 hafter hinside (.default 0) ⟨fuel, r, hr⟩

end DbdkyGcc.Config
