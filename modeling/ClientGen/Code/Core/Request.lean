import ClientGen.Code.Lines

/-! The file of the generated core that sends requests. -/

namespace ClientGen.Code.Core

def objectType : String := "Record<string, any>"

/-- The function that tells whether a value is there. -/
def isDefinedFunction (language : Language) : List String :=
  block
    (choose language
      ("function isDefined<T>(value: T | null | undefined): " ++
        "value is Exclude<T, null | undefined>")
      "function isDefined(value)")
    ["return value !== undefined && value !== null;"]

def queryFunction (language : Language) : List String :=
  block (functionHead language "getQueryString" [("params", objectType)] "string")
    (["const " ++ typed language "qs" "string[]" ++ " = [];"] ++
      block "for (const key of Object.keys(params))"
        (["const value = params[key];"] ++
          block "if (!isDefined(value))" ["continue;"] ++
          ["const values = Array.isArray(value) ? value : [value];"] ++
          block "for (const item of values)"
            ["qs.push(`" ++ placeholder "encodeURIComponent(key)" ++ "=" ++
              placeholder "encodeURIComponent(String(item))" ++ "`);"]) ++
      block "if (qs.length > 0)" ["return `?" ++ placeholder "qs.join('&')" ++ "`;"] ++
      ["return '';"])

def urlFunction (language : Language) : List String :=
  block (functionHead language "getUrl" [("options", "ApiRequestOptions")] "string")
    (closed
      ("const path = options.url.replace(/" ++ braced "(.*?)" ++ "/g, (" ++
        typed language "substring" "string" ++ ", " ++ typed language "group" "string" ++ ") => ")
      (block "if (options.path && isDefined(options.path[group]))"
        ["return encodeURIComponent(String(options.path[group]));"] ++ ["return substring;"])
      ");" ++
    ["const url = `" ++ placeholder "OpenAPI.BASE" ++ placeholder "path" ++ "`;"] ++
    block "if (options.query)"
      ["return `" ++ placeholder "url" ++ placeholder "getQueryString(options.query)" ++ "`;"] ++
    ["return url;"])

def formFunction (language : Language) : List String :=
  block (functionHead language "getFormData" [("params", objectType)] "FormData")
    (["const formData = new FormData();"] ++
      block "for (const key of Object.keys(params))"
        (["const value = params[key];"] ++
          block "if (isDefined(value))"
            ["formData.append(key, value instanceof Blob ? value : String(value));"]) ++
      ["return formData;"])

def tokenFunction (language : Language) : List String :=
  block ("async " ++ functionHead language "getToken" [] "Promise<string | undefined>")
    (block "if (typeof OpenAPI.TOKEN === 'function')" ["return OpenAPI.TOKEN();"] ++
      ["return OpenAPI.TOKEN;"])

def headersFunction (language : Language) : List String :=
  let setType (value : String) := "headers.set('Content-Type', " ++ value ++ ");"
  block
    ("async " ++ functionHead language "getHeaders" [("options", "ApiRequestOptions")]
      "Promise<Headers>")
    (closed "const headers = new Headers(" ["Accept: 'application/json',", "...OpenAPI.HEADERS,"]
      ");" ++
    block ("for (const [key, value] of Object.entries(options.headers ?? " ++ braced "" ++ "))")
      (block "if (isDefined(value))" ["headers.set(key, String(value));"]) ++
    ["const cookies = Object.entries(options.cookies ?? " ++ braced "" ++ ")",
      ".filter(([, value]) => isDefined(value))",
      ".map(([key, value]) => `" ++ placeholder "key" ++ "=" ++
        placeholder "encodeURIComponent(String(value))" ++ "`);"] ++
    block "if (cookies.length > 0)" ["headers.set('Cookie', cookies.join('; '));"] ++
    ["const token = await getToken();"] ++
    block "if (isDefined(token) && token !== '')"
      ["headers.set('Authorization', `Bearer " ++ placeholder "token" ++ "`);"] ++
    block "if (isDefined(options.body) && !options.formData)"
      (chain "if (options.mediaType)" [setType "options.mediaType"]
        [("else if (options.body instanceof Blob)",
            [setType "options.body.type || 'application/octet-stream'"]),
          ("else if (typeof options.body === 'string')", [setType "'text/plain'"]),
          ("else", [setType "'application/json'"])]) ++
    ["return headers;"])

def bodyFunction (language : Language) : List String :=
  block
    (functionHead language "getRequestBody" [("options", "ApiRequestOptions")]
      "BodyInit | undefined")
    (block "if (options.formData)" ["return getFormData(options.formData);"] ++
    block "if (!isDefined(options.body))" ["return undefined;"] ++
    block "if (typeof options.body === 'string' || options.body instanceof Blob)"
      ["return options.body;"] ++
    ["return JSON.stringify(options.body);"])

/-- Messages for codes that an operation does not document. -/
def errorMessages : List (Nat × String) :=
  [(400, "Bad Request"), (401, "Unauthorized"), (403, "Forbidden"), (404, "Not Found"),
    (500, "Internal Server Error"), (502, "Bad Gateway"), (503, "Service Unavailable")]

/-- The function that throws the error of a result. -/
def catchFunction (language : Language) : List String :=
  let messages := errorMessages.map fun (code, message) => s!"{code}: '{message}',"
  block
    (functionHead language "catchErrors"
      [("options", "ApiRequestOptions"), ("result", "ApiResult")] "void")
    (closed ("const " ++ typed language "errors" "Record<number, string>" ++ " = ")
      (messages ++ ["...options.errors,"]) ";" ++
    ["const error = errors[result.status];"] ++
    block "if (error)" ["throw new ApiError(result, error);"] ++
    block "if (!result.ok)" ["throw new ApiError(result, 'Generic Error');"])

/-- The functions that every transport needs. -/
def sharedFunctions (language : Language) : List String :=
  List.intercalate [""]
    [isDefinedFunction language, queryFunction language, urlFunction language,
      formFunction language, tokenFunction language, headersFunction language,
      bodyFunction language, catchFunction language]

def requestImports (language : Language) : List String :=
  let imported (mark name : String) :=
    "import " ++ mark ++ braced (" " ++ name ++ " ") ++ " from './" ++ name ++ "';"
  [imported "" "ApiError"] ++
  choose language [imported "type " "ApiRequestOptions", imported "type " "ApiResult"] [] ++
  [imported "" "OpenAPI"]

def sendFunction (language : Language) : Transport → List String
  | .fetch =>
    block
      ("async " ++ functionHead language "sendRequest"
        [("options", "ApiRequestOptions"), ("url", "string")] "Promise<Response>")
      (closed "return fetch(url, "
        ["method: options.method,", "headers: await getHeaders(options),",
          "body: getRequestBody(options),",
          "credentials: OpenAPI.WITH_CREDENTIALS ? 'include' : 'same-origin',"] ");")
  | .xhr =>
    block
      ("async " ++ functionHead language "sendRequest"
        [("options", "ApiRequestOptions"), ("url", "string")] "Promise<XMLHttpRequest>")
      (["const xhr = new XMLHttpRequest();", "xhr.open(options.method, url, true);",
        "xhr.withCredentials = OpenAPI.WITH_CREDENTIALS;",
        "const headers = await getHeaders(options);"] ++
      closed
        ("headers.forEach((" ++ typed language "value" "string" ++ ", " ++
          typed language "key" "string" ++ ") => ")
        ["xhr.setRequestHeader(key, value);"] ");" ++
      closed
        ("return new Promise" ++ choose language "<XMLHttpRequest>" "" ++ "((resolve, reject) => ")
        ["xhr.onload = () => resolve(xhr);",
          "xhr.onerror = () => reject(new Error(`Network error requesting " ++
            placeholder "url" ++ "`));",
          "xhr.send(getRequestBody(options) ?? null);"] ");")

def responseFunction (language : Language) : Transport → List String
  | .fetch =>
    block
      ("async " ++ functionHead language "getResponseBody" [("response", "Response")]
        "Promise<any>")
      (block "if (response.status === 204)" ["return undefined;"] ++
      ["const contentType = response.headers.get('Content-Type') ?? '';"] ++
      block "if (contentType.includes('json'))" ["return response.json();"] ++
      ["return response.text();"])
  | .xhr =>
    block (functionHead language "getResponseBody" [("xhr", "XMLHttpRequest")] "any")
      (block "if (xhr.status === 204)" ["return undefined;"] ++
      ["const contentType = xhr.getResponseHeader('Content-Type') ?? '';"] ++
      block "if (contentType.includes('json') && xhr.responseText)"
        ["return JSON.parse(xhr.responseText);"] ++
      ["return xhr.responseText;"])

/-- The comment of the function that services call. -/
def requestComment (language : Language) (transport : String) : List String :=
  let purpose := "The request options from the service"
  comment
    (["Request using " ++ transport ++ " client"] ++
    choose language ["@param options " ++ purpose, "@returns ApiResult"]
      ["@param " ++ braced "import('./ApiRequestOptions').ApiRequestOptions" ++ " options " ++
          purpose,
        "@returns " ++ braced "Promise<import('./ApiResult').ApiResult<any>>"] ++
    ["@throws ApiError"])

/-- The function that services call, for a response in a variable. -/
def requestFunction (language : Language) (name : String) (ok body : String) : List String :=
  block
    ("export async " ++ choose language
      "function request<T = any>(options: ApiRequestOptions): Promise<ApiResult<T>>"
      "function request(options)")
    (["const url = getUrl(options);",
      "const " ++ name ++ " = await sendRequest(options, url);"] ++
    closed ("const " ++ typed language "result" "ApiResult<T>" ++ " = ")
      ["url,", "ok: " ++ ok ++ ",", "status: " ++ name ++ ".status,",
        "statusText: " ++ name ++ ".statusText,", "body: " ++ body ++ ","] ";" ++
    ["catchErrors(options, result);", "return result;"])

/-- The file that sends requests. -/
def request (language : Language) (transport : Transport) : List String :=
  let ending :=
    match transport with
    | .fetch =>
      requestComment language "fetch" ++
        requestFunction language "response" "response.ok" "await getResponseBody(response)"
    | .xhr =>
      requestComment language "XHR" ++
        requestFunction language "xhr" "xhr.status >= 200 && xhr.status < 300"
          "getResponseBody(xhr)"
  List.intercalate [""]
    [requestImports language, sharedFunctions language, sendFunction language transport,
      responseFunction language transport, ending]

end ClientGen.Code.Core
