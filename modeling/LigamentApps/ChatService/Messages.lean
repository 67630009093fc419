import LigamentApps.Machine.Trace
import Mathlib.Data.Int.Notation

/-!
# The messages of the chats

The lists of messages of `ChatService` of `chat_service.dart`, newest first, one for each chat and topic, as a
machine: its methods up to their awaits, the answers of the server in any order, and the events of the socket.
The chats, their unread counts and the topics themselves are left out, save for which chats have their topics
loaded; so are the sounds and `sendAttachment`, which ends in `sendMessage`. -/

namespace LigamentApps.ChatService

/-- `ChatMessage`, with the fields that the lists depend on and its text. -/
structure ChatMessage where
  id : ℤ
  chatId : String
  topicId : ℤ := 0
  body : String := ""
  deriving DecidableEq

/-- The key of the list of a chat and a topic. -/
def messagesKey (chatId : String) (topicId : ℤ) : String := chatId ++ ":" ++ toString topicId

/-- A method that waits for an answer, with what it has captured. -/
inductive ChatWait
  | loadMessages (call : ℕ) (key : String) (current : List ChatMessage) (loadMore : Bool)
  /-- `sendMessage`, and `forwardMessage`, which goes on in the same way. -/
  | sendMessage (key : String)
  | deleteMessage (key : String) (messageId : ℤ)
  | editMessage (key : String) (messageId : ℤ)
  | deleteTopic (chatId : String) (topicId : ℤ)
  | deleteChat (chatId : String)
  /-- `loadTopics` and `createTopic`. -/
  | topics (chatId : String)

/-- What a method gets. -/
inductive ChatAnswer
  /-- The server cannot be reached, refuses, or gives what cannot be read. -/
  | failed
  /-- A page, oldest first. -/
  | page (fetched : List ChatMessage)
  | message (message : ChatMessage)
  | done

/-- An event of the socket about messages and topics, as far as it could be read. -/
inductive SocketEvent
  | message (msg : ChatMessage)
  | messageDeleted (chatId : String) (topicId msgId : ℤ)
  | messageUpdated (chatId : String) (topicId : ℤ) (updated : ChatMessage)
  | topicCreated (chatId : String)
  | topicDeleted (chatId : String) (deletedId : ℤ)

/-- `_messages`, `_loadingMessages`, the chats with an entry in `_topics`, and the methods that wait. -/
structure ChatLists where
  messages : String → Option (List ChatMessage) := fun _ => none
  loadingMessages : List String := []
  topics : List String := []
  waiting : List ChatWait := []
  nextCall : ℕ := 0

/-- What happens. -/
inductive ChatAction
  | loadMessages (chatId : String) (topicId : ℤ) (loadMore : Bool)
  | sendMessage (chatId : String) (topicId : ℤ)
  | forwardMessage (targetChatId : String) (targetTopicId : ℤ)
  | deleteMessage (chatId : String) (messageId topicId : ℤ)
  | editMessage (chatId : String) (messageId topicId : ℤ)
  | deleteTopic (chatId : String) (topicId : ℤ)
  | deleteChat (chatId : String)
  | loadTopics (chatId : String)
  /-- The method at this place gets its answer. -/
  | answered (place : ℕ) (answer : ChatAnswer)
  | onWebSocketEvent (event : SocketEvent)

/-- What a reader of the lists hears of. -/
inductive ChatEvent
  /-- A page is asked for. -/
  | getChatMessages (call : ℕ) (key : String) (beforeId : ℤ)
  /-- A message was sent or received. -/
  | came (key : String) (id : ℤ)

namespace ChatLists

variable (s : ChatLists)

variable (key : String)

/-- `_messages[key] ?? const []`. -/
def list : List ChatMessage := (s.messages key).getD []

/-- `_messages[key] = l`. -/
def put (l : List ChatMessage) : ChatLists :=
  { s with messages := fun key' => if key' = key then some l else s.messages key' }

/-- The lists whose keys are picked are removed. -/
def remove (picked : String → Bool) : ChatLists :=
  { s with messages := fun key => if picked key then none else s.messages key }

/-- A list that is there is changed. -/
def update (f : List ChatMessage → List ChatMessage) : ChatLists :=
  match s.messages key with
  | some current => s.put key (f current)
  | none => s

/-- A method waits. -/
def await (w : ChatWait) : ChatLists := { s with waiting := s.waiting ++ [w] }

variable (chatId : String)

/-- `loadMessages`, up to its await. -/
def loadMessages (topicId : ℤ) (loadMore : Bool) : ChatLists × List ChatEvent :=
  let key := messagesKey chatId topicId
  if s.loadingMessages.contains key then (s, [])
  else
    let current := s.list key
    let beforeId := if loadMore then (current.getLast?.map ChatMessage.id).getD 0 else 0
    ({ s.await (.loadMessages s.nextCall key current loadMore) with
        loadingMessages := key :: s.loadingMessages, nextCall := s.nextCall + 1 },
      [.getChatMessages s.nextCall key beforeId])

def onPage (current : List ChatMessage) (loadMore : Bool) (fetched : List ChatMessage) : ChatLists :=
  let reversedBatch := fetched.reverse
  s.put key (if loadMore then current ++ reversedBatch else reversedBatch)

/-- `finally` of `loadMessages`. -/
def loaded : ChatLists :=
  { s with loadingMessages := s.loadingMessages.filter (· ≠ key) }

/-- A message is put before the others. -/
def insert (msg : ChatMessage) : ChatLists × List ChatEvent :=
  (s.put key (msg :: s.list key), [.came key msg.id])

/-- The message with an id is removed. -/
def drop (messageId : ℤ) : ChatLists :=
  s.update key fun current => current.filter (·.id ≠ messageId)

def replace (messageId : ℤ) (updated : ChatMessage) : ChatLists :=
  s.update key fun current => current.map fun m => if m.id = messageId then updated else m

/-- The messages of a topic are removed with it, where the topics of the chat are loaded. -/
def removeTopic (topicId : ℤ) : ChatLists :=
  if s.topics.contains chatId then s.remove (· == messagesKey chatId topicId) else s

def withTopics : ChatLists := { s with topics := chatId :: s.topics }

/-- A method goes on with its answer. -/
def resume : ChatWait → ChatAnswer → Option (ChatLists × List ChatEvent)
  | .loadMessages _ key _ _, .failed => some (s.loaded key, [])
  | .loadMessages _ key current loadMore, .page fetched =>
    some ((s.onPage key current loadMore fetched).loaded key, [])
  | .sendMessage key, .message sent => some (s.insert key sent)
  | .deleteMessage key messageId, .done => some (s.drop key messageId, [])
  | .editMessage key messageId, .message updated => some (s.replace key messageId updated, [])
  | .deleteTopic chatId topicId, .done => some (s.removeTopic chatId topicId, [])
  | .deleteChat chatId, .done => some (s.remove (·.startsWith (chatId ++ ":")), [])
  | .topics chatId, .done => some (s.withTopics chatId, [])
  | _, .failed => some (s, [])
  | _, _ => none

def onWebSocketEvent : SocketEvent → ChatLists × List ChatEvent
  | .message msg => s.insert (messagesKey msg.chatId msg.topicId) msg
  | .messageDeleted chatId topicId msgId => (s.drop (messagesKey chatId topicId) msgId, [])
  | .messageUpdated chatId topicId updated => (s.replace (messagesKey chatId topicId) updated.id updated, [])
  | .topicCreated chatId => (if chatId = "" then s else s.withTopics chatId, [])
  | .topicDeleted chatId deletedId => (if chatId = "" then s else s.removeTopic chatId deletedId, [])

def step : ChatAction → Option (ChatLists × List ChatEvent)
  | .loadMessages chatId topicId loadMore => some (s.loadMessages chatId topicId loadMore)
  | .sendMessage chatId topicId | .forwardMessage chatId topicId =>
    some (s.await (.sendMessage (messagesKey chatId topicId)), [])
  | .deleteMessage chatId messageId topicId =>
    some (s.await (.deleteMessage (messagesKey chatId topicId) messageId), [])
  | .editMessage chatId messageId topicId => some (s.await (.editMessage (messagesKey chatId topicId) messageId), [])
  | .deleteTopic chatId topicId => some (s.await (.deleteTopic chatId topicId), [])
  | .deleteChat chatId => some (s.await (.deleteChat chatId), [])
  | .loadTopics chatId => some (s.await (.topics chatId), [])
  | .answered place answer => do
    let w ← s.waiting[place]?
    { s with waiting := s.waiting.eraseIdx place }.resume w answer
  | .onWebSocketEvent event => some (s.onWebSocketEvent event)

end ChatLists

def chatLists : Machine ChatLists ChatAction ChatEvent := ⟨ChatLists.step⟩

end LigamentApps.ChatService
