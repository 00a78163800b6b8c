import EndpointConsole.Sorted

/-!
Messages in the two languages of the user interface. A message may hold numbered
places for arguments; those of the request view have names that begin with
`webview.`, which the view does not see.
-/
namespace EndpointConsole

inductive Language where
  | english
  | chinese
  deriving Repr, DecidableEq, Inhabited

/-- A message under its name. -/
structure Message where
  name : Text
  english : Text
  chinese : Text
  deriving Repr, DecidableEq

namespace Language

/-- The language of a locale: Chinese if it begins with `zh` in any case. -/
def ofTag (tag : Text) : Language :=
  if Text.startsWith "zh".toList (Text.asciiLower (Text.trim tag)) then .chinese else .english

def tag : Language → Text
  | .english => "en".toList
  | .chinese => "zh-cn".toList

end Language

namespace Message

def inLanguage (m : Message) : Language → Text
  | .english => m.english
  | .chinese => m.chinese

def all : List Message :=
  [⟨"error.noWorkspace".toList, "Please open a workspace first".toList, "请先打开一个工作区".toList⟩,
  ⟨"error.noProjectFile".toList, "Cannot find project file".toList, "无法找到项目文件".toList⟩,
  ⟨"error.cannotOpenFile".toList, "Cannot open file".toList, "无法打开文件".toList⟩,
  ⟨"error.notAnEndpoint".toList, "No API endpoint at \x7b0\x7d:\x7b1\x7d".toList,
    "\x7b0\x7d:\x7b1\x7d 处没有 API 端点".toList⟩,
  ⟨"debug.starting".toList, "Starting \x7b0\x7d...".toList, "正在启动 \x7b0\x7d...".toList⟩,
  ⟨"debug.running".toList, "\x7b0\x7d is running".toList, "\x7b0\x7d 正在运行".toList⟩,
  ⟨"debug.failed".toList, "Failed to start debugging: \x7b0\x7d".toList, "启动调试失败: \x7b0\x7d".toList⟩,
  ⟨"webview.send".toList, "Send".toList, "发送".toList⟩,
  ⟨"webview.add".toList, "Add".toList, "添加".toList⟩,
  ⟨"webview.cancel".toList, "Cancel".toList, "取消".toList⟩,
  ⟨"webview.save".toList, "Save".toList, "保存".toList⟩,
  ⟨"webview.delete".toList, "Delete".toList, "删除".toList⟩,
  ⟨"webview.remove".toList, "Remove".toList, "移除".toList⟩,
  ⟨"webview.tab.headers".toList, "Headers".toList, "Headers".toList⟩,
  ⟨"webview.tab.auth".toList, "Auth".toList, "Auth".toList⟩,
  ⟨"webview.tab.query".toList, "Query".toList, "Query".toList⟩,
  ⟨"webview.tab.body".toList, "Body".toList, "Body".toList⟩,
  ⟨"webview.tab.response".toList, "Response".toList, "Response".toList⟩,
  ⟨"webview.placeholder.baseUrl".toList, "Select Base URL".toList, "选择 Base URL".toList⟩,
  ⟨"webview.placeholder.route".toList, "/api/route".toList, "/api/route".toList⟩,
  ⟨"webview.placeholder.token".toList, "token (Bearer prefix optional)".toList,
    "token（Bearer 前缀可选）".toList⟩,
  ⟨"webview.placeholder.body".toList, "Enter JSON body here...".toList,
    "在此输入 JSON body...".toList⟩,
  ⟨"webview.placeholder.key".toList, "Key".toList, "Key".toList⟩,
  ⟨"webview.placeholder.value".toList, "Value".toList, "Value".toList⟩,
  ⟨"webview.placeholder.parameter".toList, "parameter".toList, "parameter".toList⟩,
  ⟨"webview.placeholder.baseUrlInput".toList, "https://api.example.com".toList,
    "https://api.example.com".toList⟩,
  ⟨"webview.status.label".toList, "Status:".toList, "状态:".toList⟩,
  ⟨"webview.size.label".toList, "Size:".toList, "大小:".toList⟩,
  ⟨"webview.time.label".toList, "Time:".toList, "耗时:".toList⟩,
  ⟨"webview.status.sending".toList, "Sending...".toList, "正在发送...".toList⟩,
  ⟨"webview.baseUrl.manage".toList, "Manage Base URLs".toList, "管理 Base URLs".toList⟩,
  ⟨"webview.baseUrl.add".toList, "+ Add Base URL".toList, "+ 添加 Base URL".toList⟩,
  ⟨"webview.baseUrl.empty".toList, "No Base URLs yet. Click \"+ Add Base URL\" to add one.".toList,
    "暂无 Base URL，点击\"+ 添加 Base URL\"添加一个".toList⟩,
  ⟨"webview.baseUrl.saved".toList, "Base URLs saved".toList, "Base URLs 已保存".toList⟩,
  ⟨"webview.auth.bearer".toList, "Bearer".toList, "Bearer".toList⟩,
  ⟨"webview.auth.basic".toList, "Basic".toList, "Basic".toList⟩,
  ⟨"webview.auth.oauth2".toList, "OAuth 2".toList, "OAuth 2".toList⟩,
  ⟨"webview.history.title".toList, "History".toList, "历史记录".toList⟩,
  ⟨"webview.history.clear".toList, "Clear history".toList, "清空历史".toList⟩,
  ⟨"webview.history.empty".toList, "No requests yet".toList, "暂无请求记录".toList⟩,
  ⟨"webview.bodyMode.formDataEmpty".toList, "FormData has no valid fields".toList,
    "FormData 没有有效字段".toList⟩,
  ⟨"webview.error.requestFailed".toList, "Request failed".toList, "请求失败".toList⟩,
  ⟨"webview.error.invalidJson".toList, "Invalid JSON format".toList, "JSON 格式错误".toList⟩,
  ⟨"webview.error.networkError".toList, "Network error".toList, "网络错误".toList⟩]

/-- The message of a name; a name without one stands for itself. -/
def template (language : Language) (name : Text) : Text :=
  match all.find? fun m => m.name = name with
  | some m => m.inLanguage language
  | none => name

/-- The place of an argument. -/
def place (index : Nat) : Text := '\x7b' :: Nat.toDigits 10 index ++ ['\x7d']

/-- Puts arguments in their places one after the other, the first of them at `index`. -/
def fillFrom (index : Nat) : List Text → Text → Text
  | [], s => s
  | arg :: rest, s => fillFrom (index + 1) rest (Text.replace (place index) arg s)

/-- A message with its arguments. -/
def text (language : Language) (name : Text) (args : List Text) : Text :=
  fillFrom 0 args (template language name)

/-- The messages of the request view by their short names, in order. -/
def viewTexts (language : Language) : List (Text × Text) :=
  Sorted.ofList (all.filterMap fun m =>
    (Text.stripStart? "webview.".toList m.name).map fun short => (short, m.inLanguage language))

end Message

end EndpointConsole
