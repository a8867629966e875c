import WebSub.Text.Form

/-!
# Topics and watch pages

The address of a channel's feed, which is the topic of its subscription, and of a video's page.
-/

namespace WebSub

def topicBase : String := "https://www.youtube.com/xml/feeds/videos.xml?channel_id="

def watchBase : String := "https://www.youtube.com/watch?v="

def topicUrl (channelId : String) : String :=
  topicBase ++ String.ofList (Form.escape channelId.toList)

def watchUrl (videoId : String) : String :=
  watchBase ++ String.ofList (Form.escape videoId.toList)

end WebSub
