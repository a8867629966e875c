import Mathlib.Data.List.TakeWhile
import WebSub.Http.Message
import WebSub.Proofs.Text.Form
import WebSub.Subscription.Input
import WebSub.Topic

/-!
# Topics and channels

The address of a channel's feed has the channel as its only parameter, so that it tells which
channel it is for. A channel's name that a request may hold stands in the address as it is.
-/

namespace WebSub

variable {c c' : String}

/-! ## One channel for a topic -/

theorem topicUrl_toList (c : String) :
    (topicUrl c).toList = topicBase.toList ++ Form.escape c.toList := by
  unfold topicUrl
  rw [String.toList_append, String.toList_ofList]

theorem topicUrl_inj (h : topicUrl c = topicUrl c') : c = c' := by
  have same := congrArg String.toList h
  rw [topicUrl_toList, topicUrl_toList] at same
  exact Form.escape_inj (List.append_cancel_left same)

theorem topicUrl_eq_iff : topicUrl c = topicUrl c' ↔ c = c' := ⟨topicUrl_inj, congrArg topicUrl⟩

/-! ## The parameter -/

/-- The address of all feeds, before their parameters. -/
def feedAddress : List Char := "https://www.youtube.com/xml/feeds/videos.xml".toList

theorem topicUrl_parts (c : String) :
    (topicUrl c).toList = feedAddress ++ '?' :: Form.writePair ("channel_id", c) := by
  have name : Form.escape "channel_id".toList = "channel_id".toList := by decide
  have base : topicBase.toList = feedAddress ++ '?' :: ("channel_id".toList ++ ['=']) := by
    decide
  rw [topicUrl_toList, base, Form.writePair, name, List.append_assoc, List.cons_append,
    List.append_assoc, List.singleton_append]

theorem notMem_pair {d : Char} (other : Form.isWritten d = false) (sign : d ≠ '=') :
    d ∉ Form.writePair ("channel_id", c) := by
  intro hd
  rcases Form.mem_writePair hd with written | same
  · rw [written] at other
    cases other
  · exact sign same

theorem query_topicUrl {r : Http.Request} (asked : r.target = topicUrl c) :
    r.query = [("channel_id", c)] := by
  have whole : ∀ d ∈ feedAddress ++ '?' :: Form.writePair ("channel_id", c), (d != '#') = true := by
    intro d hd
    rw [bne_iff_ne]
    rintro rfl
    rcases List.mem_append.mp hd with base | rest
    · exact absurd base (by decide)
    · rcases List.mem_cons.mp rest with same | pair
      · exact absurd same (by decide)
      · exact notMem_pair (by decide) (by decide) pair
  have address : r.address = feedAddress ++ '?' :: Form.writePair ("channel_id", c) := by
    unfold Http.Request.address
    rw [asked, topicUrl_parts, List.takeWhile_eq_self_iff.mpr whole]
  have before : ∀ d ∈ feedAddress, (d != '?') = true := by
    intro d hd
    rw [bne_iff_ne]
    rintro rfl
    exact absurd hd (by decide)
  have one : Form.writePair ("channel_id", c) = (Form.write [("channel_id", c)]).toList := by
    unfold Form.write
    rw [String.toList_ofList]
    simp
  unfold Http.Request.query
  rw [address, List.dropWhile_append_of_pos before, List.dropWhile_cons_of_neg (by decide),
    List.drop_one, List.tail_cons, one, Form.read_write]

/-! ## Names that requests may hold -/

namespace CreateRequest

theorem isChannelIdChar_of_valid {r : CreateRequest} (valid : r.violations = []) :
    ∀ d ∈ r.channelId.toList, isChannelIdChar d := by
  unfold violations channelIdViolations at valid
  by_cases all : r.channelId.toList.all isChannelIdChar = true
  · exact List.all_eq_true.mp all
  · rw [if_neg all] at valid
    simp only at valid
    split at valid
    case h_1 none => simp at none
    case h_2 => simp at valid

theorem ascii_of_isChannelIdChar {d : Char} (h : isChannelIdChar d) : d.toNat < 0x80 := by
  refine Form.isWritten_ascii ?_
  simp only [isChannelIdChar, Bool.or_eq_true, beq_iff_eq] at h
  rcases h with (letter | rfl) | rfl
  · simp [Form.isWritten, letter]
  · decide
  · decide

theorem plain_of_isChannelIdChar {d : Char} (h : isChannelIdChar d) :
    Form.plain (Utf8.asciiByte d) := by
  unfold Form.plain
  rw [Utf8.toNat_asciiByte (ascii_of_isChannelIdChar h), Char.ofNat_toNat]
  simp only [isChannelIdChar, Bool.or_eq_true, beq_iff_eq] at h
  rcases h with (letter | rfl) | rfl
  · simp [letter]
  · decide
  · decide

theorem topicUrl_of_valid {r : CreateRequest} (valid : r.violations = []) :
    topicUrl r.channelId =
      "https://www.youtube.com/xml/feeds/videos.xml?channel_id=" ++ r.channelId := by
  have allowed := isChannelIdChar_of_valid valid
  unfold topicUrl
  rw [Form.escape_of_plain (fun d hd => ascii_of_isChannelIdChar (allowed d hd))
    fun d hd => plain_of_isChannelIdChar (allowed d hd), String.ofList_toList]
  rfl

end CreateRequest

end WebSub
