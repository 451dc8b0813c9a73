import FlowExpr.Function.Registry

/-!
# The functions of the workflow language

Pure data: every function of the language with its argument counts, the types of its parameters,
the type of its result and a description.
-/

namespace FlowExpr

/-- Every function of the language, in the order of the names. -/
def builtinDefinitions : List Definition := [
  ⟨"action", 0, some 0, [], "Object",
    "Return the current action's output object at runtime. Use properties like .outputs, .inputs, .startTime, .endTime, .status, etc. (special context)."⟩,
  ⟨"actions", 1, some 1, ["String"], "Object",
    "Return a specific action's output object at runtime, including outputs, inputs, status, etc."⟩,
  ⟨"add", 2, some 2, ["NumberLike", "NumberLike"], "Number",
    "Return the result from adding two numbers."⟩,
  ⟨"addDays", 2, some 3, ["TimestampString", "Integer", "String"], "TimestampString",
    "Add a number of days to a timestamp."⟩,
  ⟨"addHours", 2, some 3, ["TimestampString", "Integer", "String"], "TimestampString",
    "Add a number of hours to a timestamp."⟩,
  ⟨"addMinutes", 2, some 3, ["TimestampString", "Integer", "String"], "TimestampString",
    "Add a number of minutes to a timestamp."⟩,
  ⟨"addProperty", 3, some 3, ["Object", "String", "Any"], "Object",
    "Add a property and its value to a JSON object. Fails if property already exists."⟩,
  ⟨"addSeconds", 2, some 3, ["TimestampString", "Integer", "String"], "TimestampString",
    "Add a number of seconds to a timestamp."⟩,
  ⟨"addToTime", 3, some 4, ["TimestampString", "Integer", "String", "String"], "TimestampString",
    "Add a number of time units to a timestamp."⟩,
  ⟨"and", 2, none, ["Boolean"], "Boolean",
    "Check whether all expressions are true."⟩,
  ⟨"array", 1, some 1, ["Any"], "Array",
    "Return an array from a single specified input."⟩,
  ⟨"base64", 1, some 1, ["String"], "Base64String",
    "Return the base64-encoded version for a string."⟩,
  ⟨"base64ToBinary", 1, some 1, ["Base64String"], "BinaryString",
    "Return the binary version for a base64-encoded string."⟩,
  ⟨"base64ToString", 1, some 1, ["Base64String"], "String",
    "Return the string version for a base64-encoded string (decoding). Preferred over decodeBase64()."⟩,
  ⟨"binary", 1, some 1, ["String"], "BinaryString",
    "Return the base64-encoded binary version of a string."⟩,
  ⟨"body", 1, some 1, ["String"], "Any",
    "Return an action's body output. Shorthand for actions('<actionName>').outputs.body."⟩,
  ⟨"bool", 1, some 1, ["Any"], "Boolean",
    "Return the Boolean version of a value."⟩,
  ⟨"chunk", 2, some 2, ["String | Array", "Integer"], "Array",
    "Split a string or array into chunks of equal length."⟩,
  ⟨"coalesce", 1, none, ["Any"], "Any",
    "Return the first non-null value from one or more parameters."⟩,
  ⟨"concat", 2, none, ["String"], "String",
    "Combine two or more strings."⟩,
  ⟨"contains", 2, some 2, ["String | Array | Object", "Any"], "Boolean",
    "Check whether a collection has a specific item. Case-sensitive."⟩,
  ⟨"convertFromUtc", 2, some 3, ["TimestampString", "String", "String"], "TimestampString",
    "Convert a timestamp from Universal Time Coordinated (UTC) to the target time zone."⟩,
  ⟨"convertTimeZone", 3, some 4, ["TimestampString", "String", "String", "String"], "TimestampString",
    "Convert a timestamp from the source time zone to the target time zone."⟩,
  ⟨"convertToUtc", 2, some 3, ["TimestampString", "String", "String"], "TimestampString",
    "Convert a timestamp from the source time zone to Universal Time Coordinated (UTC)."⟩,
  ⟨"createArray", 1, none, ["Any"], "Array",
    "Return an array from multiple inputs."⟩,
  ⟨"dataUri", 1, some 1, ["String"], "DataUriString",
    "Return a data uniform resource identifier (URI) for a string."⟩,
  ⟨"dataUriToBinary", 1, some 1, ["DataUriString"], "BinaryString",
    "Return the binary version for a data uniform resource identifier (URI). Preferred over decodeDataUri()."⟩,
  ⟨"dataUriToString", 1, some 1, ["DataUriString"], "String",
    "Return the string version for a data uniform resource identifier (URI)."⟩,
  ⟨"dateDifference", 2, some 2, ["TimestampString", "TimestampString"], "TimespanString",
    "Return the difference between two timestamps as a timespan string."⟩,
  ⟨"dayOfMonth", 1, some 1, ["TimestampString"], "Integer",
    "Return the day of the month component from a timestamp."⟩,
  ⟨"dayOfWeek", 1, some 1, ["TimestampString"], "Integer",
    "Return the day of the week component from a timestamp (Sunday is 0)."⟩,
  ⟨"dayOfYear", 1, some 1, ["TimestampString"], "Integer",
    "Return the day of the year component from a timestamp."⟩,
  ⟨"decimal", 1, some 1, ["String"], "Number",
    "Return a decimal number from a string."⟩,
  ⟨"decodeBase64", 1, some 1, ["Base64String"], "String",
    "Return the string version for a base64-encoded string. Deprecated, use base64ToString()."⟩,
  ⟨"decodeDataUri", 1, some 1, ["DataUriString"], "BinaryString",
    "Return the binary version for a data uniform resource identifier (URI). Not preferred, use dataUriToBinary()."⟩,
  ⟨"decodeUriComponent", 1, some 1, ["UriString"], "String",
    "Return a string that replaces escape characters with decoded versions."⟩,
  ⟨"div", 2, some 2, ["NumberLike", "NumberLike"], "Number",
    "Return the result from dividing two numbers (integer division if both inputs are integers)."⟩,
  ⟨"encodeUriComponent", 1, some 1, ["String"], "UriString",
    "Return a URI-encoded version for a string by replacing URL-unsafe characters with escape characters. Not preferred, use uriComponent()."⟩,
  ⟨"empty", 1, some 1, ["Collection"], "Boolean",
    "Check whether a collection is empty."⟩,
  ⟨"endsWith", 2, some 2, ["String", "String"], "Boolean",
    "Check whether a string ends with a specific substring. Not case-sensitive."⟩,
  ⟨"equals", 2, some 2, ["Any", "Any"], "Boolean",
    "Check whether both values, expressions, or objects are equivalent."⟩,
  ⟨"first", 1, some 1, ["String | Array"], "Any",
    "Return the first item from a string or array."⟩,
  ⟨"float", 1, some 2, ["String", "String"], "Float",
    "Convert a string version for a floating-point number to an actual floating point number."⟩,
  ⟨"formatDateTime", 1, some 3, ["TimestampString", "String", "String"], "String",
    "Return a timestamp in the specified format."⟩,
  ⟨"formDataMultiValues", 2, some 2, ["String", "String"], "Array",
    "Create an array with the values that match a key name in an action's form-data or form-encoded outputs."⟩,
  ⟨"formDataValue", 2, some 2, ["String", "String"], "String",
    "Return a single value that matches a key name in an action's form-data or form-encoded output. Throws error if multiple matches."⟩,
  ⟨"formatNumber", 2, some 3, ["NumberLike", "String", "String"], "String",
    "Return a number as a string based on the specified format."⟩,
  ⟨"getFutureTime", 2, some 3, ["Integer", "String", "String"], "TimestampString",
    "Return the current timestamp plus the specified time units."⟩,
  ⟨"getPastTime", 2, some 3, ["Integer", "String", "String"], "TimestampString",
    "Return the current timestamp minus the specified time units."⟩,
  ⟨"greater", 2, some 2, ["NumberLike | String", "NumberLike | String"], "Boolean",
    "Check whether the first value is greater than the second value."⟩,
  ⟨"greaterOrEquals", 2, some 2, ["NumberLike | String", "NumberLike | String"], "Boolean",
    "Check whether the first value is greater than or equal to the second value."⟩,
  ⟨"guid", 0, some 1, ["String"], "String",
    "Return a globally unique identifier (GUID) as a string."⟩,
  ⟨"if", 3, some 3, ["Boolean", "Any", "Any"], "Any",
    "Check whether an expression is true or false. Based on the result, return a specified value."⟩,
  ⟨"indexOf", 2, some 2, ["String", "String"], "Integer",
    "Return the starting position or index value for a substring. Not case-sensitive. Returns -1 if not found."⟩,
  ⟨"int", 1, some 1, ["String"], "Integer",
    "Convert the string version for an integer to an actual integer number."⟩,
  ⟨"intersection", 2, none, ["Array | Object"], "Array | Object",
    "Return a collection that has only the common items across the specified collections."⟩,
  ⟨"isFloat", 1, some 2, ["String", "String"], "Boolean",
    "Return a boolean indicating whether a string is a floating-point number."⟩,
  ⟨"isInt", 1, some 1, ["String"], "Boolean",
    "Return a boolean that indicates whether a string is an integer."⟩,
  ⟨"item", 0, some 0, [], "Any",
    "Return the current item in an array during a repeating action's current iteration (e.g., inside ForEach applied to array). (special context)."⟩,
  ⟨"items", 1, some 1, ["String"], "Any",
    "Return the current item from a specific ForEach or Until loop's current cycle. (special context)."⟩,
  ⟨"iterationIndexes", 1, some 1, ["String"], "Integer",
    "Return the index value for the current iteration inside an Until loop. (special context)."⟩,
  ⟨"json", 1, some 1, ["String | XmlObject"], "Object | Array | Any",
    "Return the JavaScript Object Notation (JSON) type value, object, or array for a string or XML."⟩,
  ⟨"join", 2, some 2, ["Array", "String"], "String",
    "Return a string that has all the items from an array, separated by the specified character."⟩,
  ⟨"last", 1, some 1, ["String | Array"], "Any",
    "Return the last item from a collection."⟩,
  ⟨"lastIndexOf", 2, some 2, ["String", "String"], "Integer",
    "Return the starting position or index value for the last occurrence of a substring. Not case-sensitive."⟩,
  ⟨"length", 1, some 1, ["String | Array"], "Integer",
    "Return the number of items in a string or array."⟩,
  ⟨"less", 2, some 2, ["NumberLike | String", "NumberLike | String"], "Boolean",
    "Check whether the first value is less than the second value."⟩,
  ⟨"lessOrEquals", 2, some 2, ["NumberLike | String", "NumberLike | String"], "Boolean",
    "Check whether the first value is less than or equal to the second value."⟩,
  ⟨"listCallbackUrl", 0, some 0, [], "String",
    "Return the 'callback URL' that calls a trigger or action. Works only with specific connector types (HttpWebhook, ApiConnectionWebhook). (special context)."⟩,
  ⟨"max", 1, none, ["NumberLike | Array"], "Number",
    "Return the highest value from a set of numbers or an array."⟩,
  ⟨"min", 1, none, ["NumberLike | Array"], "Number",
    "Return the lowest value from a set of numbers or an array."⟩,
  ⟨"mod", 2, some 2, ["NumberLike", "NumberLike"], "Number",
    "Return the remainder from dividing two numbers."⟩,
  ⟨"mul", 2, some 2, ["NumberLike", "NumberLike"], "Number",
    "Return the product from multiplying two numbers."⟩,
  ⟨"multipartBody", 2, some 2, ["String", "Integer"], "Any",
    "Return the body for a specific part in an action's output that has multiple parts."⟩,
  ⟨"not", 1, some 1, ["Boolean"], "Boolean",
    "Check whether an expression is false."⟩,
  ⟨"nthIndexOf", 3, some 3, ["String", "String", "Integer"], "Integer",
    "Return the starting position or index value where the nth occurrence of a substring appears in a string. Returns -1 if not found."⟩,
  ⟨"or", 2, none, ["Boolean"], "Boolean",
    "Check whether at least one expression is true."⟩,
  ⟨"outputs", 1, some 1, ["String"], "Object",
    "Return an action's outputs at runtime."⟩,
  ⟨"parameters", 1, some 1, ["String"], "Any",
    "Return the value for a parameter that is described in your workflow definition."⟩,
  ⟨"parseDateTime", 1, some 3, ["String", "String", "String"], "TimestampString",
    "Return the timestamp from a string that contains a timestamp."⟩,
  ⟨"rand", 2, some 2, ["Integer", "Integer"], "Integer",
    "Return a random integer from a specified range, inclusive of minValue, exclusive of maxValue."⟩,
  ⟨"range", 2, some 2, ["Integer", "Integer"], "Array",
    "Return an integer array that starts from a specified integer and has the specified count."⟩,
  ⟨"removeProperty", 2, some 2, ["Object", "String"], "Object",
    "Remove a property from a JSON object and return the updated object."⟩,
  ⟨"replace", 3, some 3, ["String", "String", "String"], "String",
    "Replace a substring with the specified string, and return the result string. Case-sensitive."⟩,
  ⟨"result", 1, some 1, ["String"], "Array",
    "Return the results (inputs and outputs) from the top-level actions inside the specified scoped action (For_each, Until, Scope)."⟩,
  ⟨"reverse", 1, some 1, ["Array"], "Array",
    "Reverse the order of items in an array."⟩,
  ⟨"setProperty", 3, some 3, ["Object", "String", "Any"], "Object",
    "Set the value for a JSON object's property and return the updated object. Adds property if it doesn't exist."⟩,
  ⟨"skip", 2, some 2, ["Array", "Integer"], "Array",
    "Remove items from the front of a collection, and return all the other items."⟩,
  ⟨"slice", 2, some 3, ["String", "Integer", "Integer"], "String",
    "Return a substring by specifying the starting and ending position or value. Character at endIndex is not included."⟩,
  ⟨"sort", 1, some 2, ["Array", "String"], "Array",
    "Sort items in a collection (array). Can sort objects by a key."⟩,
  ⟨"split", 2, some 2, ["String", "String"], "Array",
    "Return an array that contains substrings, separated by the specified delimiter character."⟩,
  ⟨"startOfDay", 1, some 2, ["TimestampString", "String"], "TimestampString",
    "Return the start of the day for a timestamp."⟩,
  ⟨"startOfHour", 1, some 2, ["TimestampString", "String"], "TimestampString",
    "Return the start of the hour for a timestamp."⟩,
  ⟨"startOfMonth", 1, some 2, ["TimestampString", "String"], "TimestampString",
    "Return the start of the month for a timestamp."⟩,
  ⟨"startsWith", 2, some 2, ["String", "String"], "Boolean",
    "Check whether a string starts with a specific substring. Not case-sensitive."⟩,
  ⟨"string", 1, some 1, ["Any"], "String",
    "Return the string version for a value. Converts null to empty string."⟩,
  ⟨"sub", 2, some 2, ["NumberLike", "NumberLike"], "Number",
    "Return the result from subtracting the second number from the first number."⟩,
  ⟨"substring", 2, some 3, ["String", "Integer", "Integer"], "String",
    "Return characters from a string, starting from the specified position (index), for the specified length."⟩,
  ⟨"subtractFromTime", 3, some 4, ["TimestampString", "Integer", "String", "String"], "TimestampString",
    "Subtract a number of time units from a timestamp."⟩,
  ⟨"take", 2, some 2, ["String | Array", "Integer"], "String | Array",
    "Return items from the front of a collection."⟩,
  ⟨"ticks", 1, some 1, ["TimestampString"], "Integer",
    "Return the number of ticks (100-nanosecond intervals) for a specified timestamp."⟩,
  ⟨"toLower", 1, some 1, ["String"], "String",
    "Return a string in lowercase format."⟩,
  ⟨"toUpper", 1, some 1, ["String"], "String",
    "Return a string in uppercase format."⟩,
  ⟨"trigger", 0, some 0, [], "Object",
    "Return the trigger's output object at runtime."⟩,
  ⟨"triggerBody", 0, some 0, [], "Any",
    "Return the trigger's body output at runtime. Shorthand for trigger().outputs.body."⟩,
  ⟨"triggerFormDataMultiValues", 1, some 1, ["String"], "Array",
    "Create an array with values that match a key name in a trigger's form-data or form-encoded output."⟩,
  ⟨"triggerFormDataValue", 1, some 1, ["String"], "String",
    "Return a string with a single value that matches a key name in a trigger's form-data or form-encoded output. Throws error if multiple matches."⟩,
  ⟨"triggerMultipartBody", 1, some 1, ["Integer"], "Any",
    "Return the body for a specific part in a trigger's output that has multiple parts."⟩,
  ⟨"triggerOutputs", 0, some 0, [], "Object",
    "Return the trigger's output object at runtime. Shorthand for trigger().outputs."⟩,
  ⟨"trim", 1, some 1, ["String"], "String",
    "Remove leading and trailing whitespace from a string, and return the updated string."⟩,
  ⟨"union", 2, none, ["Array | Object"], "Array | Object",
    "Return a collection that has all the items from the specified collections. No duplicates."⟩,
  ⟨"uriComponent", 1, some 1, ["String"], "UriString",
    "Return a URI-encoded version for a string by replacing URL-unsafe characters with escape characters. Preferred over encodeUriComponent()."⟩,
  ⟨"uriComponentToBinary", 1, some 1, ["UriString"], "BinaryString",
    "Return the binary version for a uniform resource identifier (URI) component."⟩,
  ⟨"uriComponentToString", 1, some 1, ["UriString"], "String",
    "Return the string version for a uniform resource identifier (URI) encoded string (decoding)."⟩,
  ⟨"uriHost", 1, some 1, ["UriString"], "String",
    "Return the host value for a uniform resource identifier (URI)."⟩,
  ⟨"uriPath", 1, some 1, ["UriString"], "String",
    "Return the path value for a uniform resource identifier (URI)."⟩,
  ⟨"uriPathAndQuery", 1, some 1, ["UriString"], "String",
    "Return the path and query values for a uniform resource identifier (URI)."⟩,
  ⟨"uriPort", 1, some 1, ["UriString"], "Integer",
    "Return the port value for a uniform resource identifier (URI)."⟩,
  ⟨"uriQuery", 1, some 1, ["UriString"], "String",
    "Return the query value for a uniform resource identifier (URI)."⟩,
  ⟨"uriScheme", 1, some 1, ["UriString"], "String",
    "Return the scheme value for a uniform resource identifier (URI)."⟩,
  ⟨"utcNow", 0, some 1, ["String"], "TimestampString",
    "Return the current timestamp as a string."⟩,
  ⟨"variables", 1, some 1, ["String"], "Any",
    "Return the value for a specified variable."⟩,
  ⟨"workflow", 0, some 0, [], "Object",
    "Return details about the workflow itself during run time, including id, name, type, location, run, and tags."⟩,
  ⟨"xml", 1, some 1, ["String | Object"], "XmlObject",
    "Return the XML version for a string that contains a JSON object."⟩,
  ⟨"xpath", 2, some 2, ["XmlObject | XmlString", "String"], "Array | XmlObject | Any",
    "Check XML for nodes or values that match an XPath (XML Path Language) expression, and return the matching nodes or values."⟩]

/-- The table of the language's functions. -/
def builtins : Registry := .ofDefinitions builtinDefinitions

end FlowExpr
