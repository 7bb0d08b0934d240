import ClientGen.Code.Lines

/-! Files of the generated core that declare its types and settings. -/

namespace ClientGen.Code.Core

/-- A type definition in a comment. A file of these alone is still a module. -/
def typedefs (lines : List String) : List String :=
  comment lines ++ ["", "export " ++ braced "" ++ ";"]

/-- The error that requests throw. -/
def apiError (language : Language) : List String :=
  let constructor := closed
    (choose language "constructor(response: ApiResult, message: string) "
      "constructor(response, message) ")
    ["super(message);", "", "this.name = 'ApiError';", "this.url = response.url;",
      "this.status = response.status;", "this.statusText = response.statusText;",
      "this.body = response.body;"] ""
  let head := "export class ApiError extends Error"
  match language with
  | .typescript =>
    ["import type " ++ braced " ApiResult " ++ " from './ApiResult';", ""] ++ block head
      (["public readonly url: string;", "public readonly status: number;",
        "public readonly statusText: string;", "public readonly body: any;", ""] ++ constructor)
  | .javascript => block head
    (comment ["@param " ++ braced "import('./ApiResult').ApiResult" ++ " response",
      "@param " ++ braced "string" ++ " message"] ++ constructor)

/-- The fields of a request: name, type and whether a request must have it. -/
def requestFields : List (String × String × Bool) :=
  [("method", "'GET' | 'PUT' | 'POST' | 'DELETE' | 'OPTIONS' | 'HEAD' | 'PATCH'", true),
    ("url", "string", true), ("path", "Record<string, any>", false),
    ("cookies", "Record<string, any>", false), ("headers", "Record<string, any>", false),
    ("query", "Record<string, any>", false), ("formData", "Record<string, any>", false),
    ("body", "any", false), ("mediaType", "string", false),
    ("errors", "Record<number, string>", false)]

def requestOptions : Language → List String
  | .typescript => closed "export type ApiRequestOptions = "
    (requestFields.map fun (name, type, must) =>
      "readonly " ++ name ++ (if must then "" else "?") ++ ": " ++ type ++ ";") ";"
  | .javascript => typedefs
    (("@typedef " ++ braced "Object" ++ " ApiRequestOptions") ::
      requestFields.map fun (name, type, must) =>
        "@property " ++ braced type ++ " " ++ (if must then name else "[" ++ name ++ "]"))

/-- The fields of a result: name and type. -/
def resultFields : List (String × String) :=
  [("url", "string"), ("ok", "boolean"), ("status", "number"), ("statusText", "string"),
    ("body", "T")]

def apiResult : Language → List String
  | .typescript => closed "export type ApiResult<T = any> = "
    (resultFields.map fun (name, type) => "readonly " ++ name ++ ": " ++ type ++ ";") ";"
  | .javascript => typedefs
    (["@template T", "@typedef " ++ braced "Object" ++ " ApiResult"] ++
      resultFields.map fun (name, type) => "@property " ++ braced type ++ " " ++ name)

def dictionary : Language → List String
  | .typescript => closed "export type Dictionary<T> = " ["[key: string]: T;"] ";"
  | .javascript => typedefs
    ["@template T", "@typedef " ++ braced "Object<string, T>" ++ " Dictionary"]

/-- A text in single quotes, with backslashes before single quotes. -/
def settingText (s : String) : String :=
  "'" ++ String.ofList (Text.replaceAll ['\''] ['\\', '\''] s.toList) ++ "'"

/-- The settings of a client, with its address and version. -/
def settings (language : Language) (server version : String) : List String :=
  let values :=
    ["BASE: " ++ settingText server ++ ",", "VERSION: " ++ settingText version ++ ",",
      "WITH_CREDENTIALS: false,", "TOKEN: undefined,", "HEADERS: undefined,"]
  match language with
  | .typescript =>
    ["type Headers = Record<string, string>;", ""] ++
    closed "export type OpenAPIConfig = "
      ["BASE: string;", "VERSION: string;", "WITH_CREDENTIALS: boolean;",
        "TOKEN?: string | (() => Promise<string>);", "HEADERS?: Headers;"] ";" ++
    [""] ++ closed "export const OpenAPI: OpenAPIConfig = " values ";"
  | .javascript =>
    comment
      ["@typedef " ++ braced "Object" ++ " OpenAPIConfig",
        "@property " ++ braced "string" ++ " BASE", "@property " ++ braced "string" ++ " VERSION",
        "@property " ++ braced "boolean" ++ " WITH_CREDENTIALS",
        "@property " ++ braced "string | (() => Promise<string>) | undefined" ++ " TOKEN",
        "@property " ++ braced "Record<string, string> | undefined" ++ " HEADERS"] ++
    ["", "/** @type " ++ braced "OpenAPIConfig" ++ " */"] ++
    closed "export const OpenAPI = " values ";"

end ClientGen.Code.Core
